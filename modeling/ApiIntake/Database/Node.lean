import ApiIntake.Database.Server
import ApiIntake.Feed.Broadcast

/-!
# Nodes on a database

A node is a process that keeps its configurations in the database and announces to the
other nodes through it.  It talks to the database over a pool of sessions that it uses
in turn.

A caller may give up while a statement is on its way.  The statement still runs, but its
answer never arrives, and the session goes back to the pool with its transaction rolled
back.  Only a session whose transaction was just being begun goes back inside it: the
node does not know of that transaction, and whatever it asks in that session next is asked
inside the transaction, until the next transaction that is begun there ends both.
-/

namespace ApiIntake.Database

open ApiIntake.Feed (Broadcast)

/-- Why the database cannot be used. -/
inductive AccessError where
  /-- A statement or a connection failed. -/
  | database (e : SqlError)
  /-- The pool is closed. -/
  | closed
deriving DecidableEq, Repr

namespace AccessError

/-- The text of an error. -/
def text : AccessError → String
  | .database e => "error returned from database: " ++ e.message
  | .closed => "attempted to acquire a connection on a closed pool"

/-- The text of an error with its causes behind it. -/
def chain : AccessError → String
  | .database e => "error returned from database: " ++ e.message ++ ": " ++ e.message
  | .closed => AccessError.closed.text

end AccessError

/-- Whether and when a caller gives up. -/
structure Token where
  /-- The caller has given up from the beginning. -/
  cancelled : Bool
  /-- The caller gives up when a statement of this kind arrives at the database. -/
  cancelAt : Option StatementKind
deriving DecidableEq, Repr

/-- The token of a caller that does not give up. -/
def Token.live : Token := ⟨false, none⟩

/-- A session of the pool. -/
inductive Pooled where
  /-- It is outside of transactions. -/
  | outside
  /-- It was left inside a transaction that has changed nothing. -/
  | inside (start : Tables) (aborted : Bool)

/-- The session as the database has it. -/
def Pooled.session : Pooled → Session
  | .outside => none
  | .inside start aborted => some ⟨start, [], [], aborted⟩

/-- A session that has changed nothing, as it is put into the pool. -/
def Session.pooled : Session → Pooled
  | none => .outside
  | some t => .inside t.start t.aborted

/-- A node. -/
structure Node where
  /-- The database. -/
  server : Server
  /-- The sessions of the pool, the one to be used next first. -/
  idle : List Pooled
  /-- Whether the pool is open. -/
  isOpen : Bool
  /-- Whether the caller has given up since the call began. -/
  gaveUp : Bool
  /-- The name of the node. -/
  id : String
  /-- The feed of the node. -/
  feed : Broadcast
  /-- How many listeners relay to the feed. -/
  listeners : Nat
  /-- The notifications that were sent and not yet relayed. -/
  arrived : List String
  /-- Whether the node is shutting down. -/
  closing : Bool

/-- What comes back for a statement. -/
inductive Reply where
  | answered (a : Answer)
  | failed (e : SqlError)
  /-- The caller gave up. -/
  | abandoned

namespace Node

/-- A node on a database, with a pool of so many sessions. -/
def ofServer (server : Server) (id : String) (feed : Broadcast) (poolSize : Nat := 2) : Node where
  server := server
  idle := List.replicate poolSize .outside
  isOpen := true
  gaveUp := false
  id := id
  feed := feed
  listeners := 0
  arrived := []
  closing := false

/-- Whether a caller has given up. -/
def isCancelled (t : Token) (n : Node) : Bool := t.cancelled || n.gaveUp

/-- Begins a call: its caller has not given up. -/
def beginCall : StateM Node Unit := modify fun n => { n with gaveUp := false }

/-- Takes a session out of the pool. -/
def acquire : StateM Node (Except AccessError Pooled) := fun n =>
  if n.isOpen then
    match n.idle with
    | p :: idle => (.ok p, { n with idle })
    | [] => (.ok .outside, n)
  else (.error .closed, n)

/-- Puts a session back into the pool. -/
def release (p : Pooled) : StateM Node Unit := modify fun n => { n with idle := n.idle ++ [p] }

/-- Whether the answer to a statement of a kind may be given up. -/
def canAbandon : StatementKind → Bool
  | .begin | .insertConfig | .insertEvent | .notify => true
  | _ => false

/-- Sends a statement in a session. -/
def send (t : Token) (session : Session) (statement : Statement) : StateM Node (Reply × Session) :=
  fun n =>
    let (effect, server) := n.server.run session statement
    let reached := t.cancelAt = some statement.kind
    let n := { n with
      server := server
      arrived := n.arrived ++ effect.sent
      gaveUp := n.gaveUp || reached }
    let reply :=
      if reached && canAbandon statement.kind then .abandoned
      else
        match effect.answer with
        | .ok answer => .answered answer
        | .error e => .failed e
    ((reply, effect.session), n)

/-- Runs one statement outside of any transaction of the node. -/
def query (statement : Statement) : StateM Node (Except AccessError Answer) := do
  match ← acquire with
  | .error e => return .error e
  | .ok p =>
    let (reply, session) ← send .live p.session statement
    release session.pooled
    match reply with
    | .answered answer => return .ok answer
    | .failed e => return .error (.database e)
    | .abandoned => return .ok .done

end Node

end ApiIntake.Database
