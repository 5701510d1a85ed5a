import ApiIntake.Json.Basic
import ApiIntake.Text.Utf8

/-!
# The database

Two tables, one of configurations and one of events, and a channel on which
notifications are sent.  Clients talk to the database in sessions, inside and outside of
transactions.  What a transaction changes becomes visible to others, and its
notifications are sent, when it commits.

Databases differ in how they run transactions, and a database is told which way to take
(`Regime`).  One reads what is committed: a statement in a transaction sees what others
have committed when it arrives, and one that fails aborts the transaction, so that
nothing but its end is accepted there from then on.  Another copies: a transaction sees the
tables as they were when it was begun, and goes on behind a failure.  In both a
transaction sees its own changes, and the keys of the tables are checked when a row is
inserted and once more when it is committed.

A statement can be told to fail, and statements are written down as they arrive.
-/

namespace ApiIntake.Database

/-! ## Tables -/

/-- A row of the table of configurations. -/
structure ConfigRow where
  /-- The name, which is the key. -/
  name : String
  /-- Whom the server belongs to. -/
  tenant : String
  /-- Where it is mounted. -/
  pathPrefix : String
  /-- The JSON form of the configuration. -/
  config : Json

/-- A row of the table of events. -/
structure EventRow where
  /-- The number, which is the key. -/
  id : Int
  /-- The name of a configuration. -/
  name : String
  /-- The hash of the configuration. -/
  hash : String
deriving DecidableEq, Repr

/-- The tables. -/
structure Tables where
  /-- The configurations. -/
  configs : List ConfigRow
  /-- The events. -/
  events : List EventRow

namespace Tables

/-- Tables without rows. -/
def empty : Tables := ⟨[], []⟩

/-- The row of a configuration. -/
def config? (t : Tables) (name : String) : Option ConfigRow :=
  t.configs.find? fun r => r.name = name

/-- Puts the row of a configuration in place. -/
def putConfig (t : Tables) (row : ConfigRow) : Tables :=
  { t with configs := t.configs.filter (fun r => r.name ≠ row.name) ++ [row] }

/-- Puts the row of an event in place. -/
def putEvent (t : Tables) (row : EventRow) : Tables :=
  { t with events := t.events.filter (fun r => r.id ≠ row.id) ++ [row] }

/-- The configurations in the order of their names. -/
def sortedConfigs (t : Tables) : List ConfigRow :=
  t.configs.mergeSort fun a b => decide (a.name ≤ b.name)

/-- The events in the order of their numbers. -/
def sortedEvents (t : Tables) : List EventRow := t.events.mergeSort fun a b => decide (a.id ≤ b.id)

/-- The events behind a number whose configurations exist, with the rows of those, in the
order of their numbers. -/
def eventsAfter (t : Tables) (after : Int) : List (EventRow × ConfigRow) :=
  t.sortedEvents.filterMap fun e => if after < e.id then (t.config? e.name).map (e, ·) else none

end Tables

/-! ## Statements -/

/-- A statement. -/
inductive Statement where
  | begin
  | commit
  | listen (channel : String)
  | createConfigs
  | createEvents
  | createIndex
  | insertConfig (row : ConfigRow)
  | selectConfig (name : String)
  | selectConfigs
  | insertEvent (name hash : String)
  | notify (channel payload : String)
  | replay (after limit : Int)

/-- The kinds of statements. -/
inductive StatementKind where
  | begin
  | commit
  | listen
  | createConfigs
  | createEvents
  | createIndex
  | insertConfig
  | selectConfig
  | selectConfigs
  | insertEvent
  | notify
  | replay
deriving DecidableEq, Repr

/-- The kind of a statement. -/
def Statement.kind : Statement → StatementKind
  | .begin => .begin
  | .commit => .commit
  | .listen _ => .listen
  | .createConfigs => .createConfigs
  | .createEvents => .createEvents
  | .createIndex => .createIndex
  | .insertConfig _ => .insertConfig
  | .selectConfig _ => .selectConfig
  | .selectConfigs => .selectConfigs
  | .insertEvent .. => .insertEvent
  | .notify .. => .notify
  | .replay .. => .replay

/-- What a statement returns. -/
inductive Answer where
  /-- It is done. -/
  | done
  /-- The number of a new event. -/
  | eventId (id : Int)
  /-- The configuration that was looked up. -/
  | config (row : Option ConfigRow)
  /-- All configurations. -/
  | configs (rows : List ConfigRow)
  /-- Events with the rows of their configurations. -/
  | events (rows : List (EventRow × ConfigRow))

/-- Why a statement fails. -/
structure SqlError where
  /-- The state code. -/
  code : String
  /-- The message. -/
  message : String
deriving DecidableEq, Repr

namespace SqlError

/-- Whether a key was taken. -/
def isUniqueViolation (e : SqlError) : Bool := e.code = "23505"

/-- Whether a row was refused by a check. -/
def isCheckViolation (e : SqlError) : Bool := e.code = "23514"

/-- The name of a configuration is taken. -/
def nameTaken : SqlError :=
  ⟨"23505", "duplicate key value violates unique constraint \"mcp_configs_pkey\""⟩

/-- The number of an event is taken. -/
def numberTaken : SqlError :=
  ⟨"23505", "duplicate key value violates unique constraint \"mcp_config_events_pkey\""⟩

/-- An event names a configuration that does not exist. -/
def unknownName : SqlError :=
  ⟨"23503", "insert or update on table \"mcp_config_events\" violates foreign key constraint " ++
    "\"mcp_config_events_name_fkey\""⟩

/-- The name of a configuration is blank. -/
def blankName : SqlError :=
  ⟨"23514", "new row for relation \"mcp_configs\" violates check constraint " ++
    "\"mcp_configs_name_nonblank\""⟩

/-- A notification is too long. -/
def payloadTooLong : SqlError := ⟨"22023", "payload string too long"⟩

/-- A limit is negative. -/
def negativeLimit : SqlError := ⟨"2201W", "LIMIT must not be negative"⟩

/-- A statement arrives in a transaction in which another one failed. -/
def inAborted : SqlError :=
  ⟨"25P02",
    "current transaction is aborted, commands ignored until end of transaction block"⟩

end SqlError

/-- The number of bytes from which on a notification is too long. -/
def maxPayload : Nat := 8000

/-! ## Sessions -/

/-- A change that a transaction makes. -/
inductive Change where
  | config (row : ConfigRow)
  | event (row : EventRow)

/-- Makes a change. -/
def Tables.apply (t : Tables) : Change → Tables
  | .config row => t.putConfig row
  | .event row => t.putEvent row

/-- Why a row cannot be inserted, if it cannot.  A configuration needs a name that is not
all spaces and that no other one has; an event needs a number that no other one has, and
a configuration under its name. -/
def Tables.refusal? (t : Tables) : Change → Option SqlError
  | .config row =>
    if row.name.toList.all (· = ' ') then some .blankName
    else if (t.config? row.name).isSome then some .nameTaken
    else none
  | .event row =>
    if t.events.any fun r => r.id = row.id then some .numberTaken
    else if (t.config? row.name).isNone then some .unknownName
    else none

/-- Makes changes one after the other, unless one of them is refused. -/
def Tables.applyAll (t : Tables) : List Change → Except SqlError Tables
  | [] => .ok t
  | c :: rest =>
    match t.refusal? c with
    | some e => .error e
    | none => (t.apply c).applyAll rest

/-- How much a transaction sees of the changes that others commit. -/
inductive Isolation where
  /-- Every statement sees what is committed when it arrives. -/
  | readCommitted
  /-- Every statement sees what was committed when the transaction was begun. -/
  | snapshot
deriving DecidableEq, Repr

/-- How a database runs transactions. -/
structure Regime where
  /-- How much they see. -/
  isolation : Isolation
  /-- Whether a statement that fails aborts the transaction that it is in. -/
  aborts : Bool
deriving DecidableEq, Repr

namespace Regime

/-- Transactions read what is committed, and a failure aborts them. -/
def reading : Regime := ⟨.readCommitted, true⟩

/-- Transactions work on a copy of the tables, and a failure leaves them as they are. -/
def copying : Regime := ⟨.snapshot, false⟩

end Regime

/-- A transaction that was begun. -/
structure Transaction where
  /-- The tables as they were committed when it was begun. -/
  start : Tables
  /-- Its changes, the oldest first. -/
  changes : List Change
  /-- The notifications that wait for it to commit. -/
  payloads : List String
  /-- Whether it was aborted. -/
  aborted : Bool

/-- A session, which may have begun a transaction. -/
abbrev Session := Option Transaction

namespace Session

/-- A session that has begun a transaction and done nothing else. -/
def begun (tables : Tables) : Session := some ⟨tables, [], [], false⟩

/-- Whether a session is inside a transaction that was aborted. -/
def isAborted : Session → Bool
  | some t => t.aborted
  | none => false

/-- A session whose transaction is aborted. -/
def abort : Session → Session
  | some t => some { t with aborted := true }
  | none => none

end Session

/-- A failure to come. -/
structure Fault where
  /-- The kind of statement that fails. -/
  kind : StatementKind
  /-- What it fails with. -/
  error : SqlError
deriving DecidableEq, Repr

/-- The database. -/
structure Server where
  /-- How transactions are run. -/
  regime : Regime
  /-- The tables as committed. -/
  tables : Tables
  /-- The number of the next event. -/
  nextEventId : Int
  /-- The statements that will fail, each once. -/
  faults : List Fault
  /-- Why connections are refused, if they are. -/
  refusal : Option SqlError
  /-- The statements that arrived. -/
  log : List Statement

namespace Server

/-- A database without rows. -/
def empty (regime : Regime := .copying) : Server := ⟨regime, .empty, 1, [], none, []⟩

/-- The tables as they are seen in a session. -/
def view (s : Server) : Session → Tables
  | some t =>
    match s.regime.isolation with
    | .readCommitted => t.changes.foldl .apply s.tables
    | .snapshot => t.changes.foldl .apply t.start
  | none => s.tables

/-- What came of a statement: its answer, the session behind it, and the notifications
that are sent. -/
structure Effect where
  /-- The answer. -/
  answer : Except SqlError Answer
  /-- The session. -/
  session : Session
  /-- What is sent. -/
  sent : List String

/-- A session behind a statement that failed there. -/
def behindFailure (s : Server) (session : Session) : Session :=
  if s.regime.aborts then session.abort else session

/-- Nothing but a failure comes of a statement. -/
def fail (s : Server) (session : Session) (e : SqlError) : Effect × Server :=
  (⟨.error e, s.behindFailure session, []⟩, s)

/-- Inserts a row: as a change of the transaction of the session, or at once outside of
transactions. -/
def insert (s : Server) (session : Session) (change : Change) (answer : Answer) : Effect × Server :=
  match (s.view session).refusal? change with
  | some e => s.fail session e
  | none =>
    match session with
    | some t => (⟨.ok answer, some { t with changes := t.changes ++ [change] }, []⟩, s)
    | none => (⟨.ok answer, none, []⟩, { s with tables := s.tables.apply change })

/-- Runs a statement in a session that is not inside an aborted transaction.  To begin in
a transaction leaves its changes as they are. -/
def execute (s : Server) (session : Session) : Statement → Effect × Server
  | .begin =>
    match session with
    | some t => (⟨.ok .done, some { t with start := s.tables }, []⟩, s)
    | none => (⟨.ok .done, .begun s.tables, []⟩, s)
  | .commit =>
    match session with
    | some t =>
      match s.tables.applyAll t.changes with
      | .error e => (⟨.error e, none, []⟩, s)
      | .ok tables => (⟨.ok .done, none, t.payloads⟩, { s with tables })
    | none => (⟨.ok .done, none, []⟩, s)
  | .listen _ | .createConfigs | .createEvents | .createIndex => (⟨.ok .done, session, []⟩, s)
  | .insertConfig row => s.insert session (.config row) .done
  | .insertEvent name hash =>
    let id := s.nextEventId
    { s with nextEventId := id + 1 }.insert session (.event ⟨id, name, hash⟩) (.eventId id)
  | .notify _ payload =>
    if maxPayload ≤ (Text.utf8 payload).length then s.fail session .payloadTooLong
    else
      match session with
      | some t => (⟨.ok .done, some { t with payloads := t.payloads ++ [payload] }, []⟩, s)
      | none => (⟨.ok .done, none, [payload]⟩, s)
  | .selectConfig name => (⟨.ok (.config ((s.view session).config? name)), session, []⟩, s)
  | .selectConfigs => (⟨.ok (.configs (s.view session).sortedConfigs), session, []⟩, s)
  | .replay after limit =>
    if limit < 0 then s.fail session .negativeLimit
    else
      (⟨.ok (.events (((s.view session).eventsAfter after).take limit.toNat)), session, []⟩, s)

/-- Runs a statement that is not told to fail.  An aborted transaction is rolled back when
it is to commit, and takes no other statement. -/
def perform (s : Server) (session : Session) (statement : Statement) : Effect × Server :=
  if session.isAborted then
    if statement.kind = .commit then (⟨.ok .done, none, []⟩, s)
    else s.fail session .inAborted
  else s.execute session statement

/-- Takes the failure to come for a kind of statement. -/
def takeFault (kind : StatementKind) : List Fault → Option SqlError × List Fault
  | [] => (none, [])
  | f :: rest =>
    if f.kind = kind then (some f.error, rest)
    else
      let (e, rest) := takeFault kind rest
      (e, f :: rest)

/-- Runs a statement and writes it down.  Nothing but a failure comes of one that is told
to fail, except that the transaction ends if it should have committed. -/
def run (s : Server) (session : Session) (statement : Statement) : Effect × Server :=
  let s := { s with log := s.log ++ [statement] }
  match takeFault statement.kind s.faults with
  | (some e, faults) =>
    let s := { s with faults }
    if statement.kind = .commit then (⟨.error e, none, []⟩, s) else s.fail session e
  | (none, _) => s.perform session statement

/-- The statements since they were last taken; they are taken away. -/
def takeLog (s : Server) : List Statement × Server := (s.log, { s with log := [] })

end Server

end ApiIntake.Database
