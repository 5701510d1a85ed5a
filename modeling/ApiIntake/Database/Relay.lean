import ApiIntake.Database.Configs
import ApiIntake.Json.Parser
import ApiIntake.Import.Workbench

/-!
# Announcements across nodes

An announcement is recorded as an event in the database, in a transaction that also
notifies the other nodes; when it is committed it is published on the node's own feed.
Each node relays what the others send and passes over what it sent itself, so that every
feed carries an announcement once.  Recorded events can be replayed.
-/

namespace ApiIntake.Database

open ApiIntake.Feed (AnnounceFailure Update Broadcast)

/-- The channel on which nodes notify each other. -/
def announceChannel : String := "unrelated_openapi_import_updates_v1"

/-- An announcement on its way between nodes. -/
structure Dispatch where
  /-- The node that announces. -/
  origin : String
  /-- The announcement. -/
  update : Update
deriving DecidableEq, Repr

namespace Dispatch

/-- The key of the node that announces. -/
def originKey : String := "origin"

/-- The JSON form: the members of the announcement behind the node. -/
def toJson (e : Dispatch) : Json :=
  match e.update.toJson with
  | .obj members => .obj ((originKey, .str e.origin) :: members)
  | j => j

/-- The payload of a notification. -/
def payload (e : Dispatch) : String := e.toJson.compact

/-- Reads the JSON form, in which no field may be given twice. -/
def ofJson? : Json → Option Dispatch
  | .obj members => do
    if !Json.onceEach [originKey] members then none
    else
      let origin ← Json.requiredText? members originKey
      let update ← Update.ofJson? (.obj members)
      some ⟨origin, update⟩
  | _ => none

/-- Reads the payload of a notification. -/
def ofPayload? (payload : String) : Option Dispatch := (Json.parse? payload).bind ofJson?

end Dispatch

/-- Relays a notification to the feed of a node, unless it cannot be read or comes from
the node itself. -/
def relay (node : String) (b : Broadcast) (payload : String) : Broadcast :=
  match Dispatch.ofPayload? payload with
  | some e => if e.origin = node then b else (b.publish e.update).2
  | none => b

/-- Why an announcement is not recorded or read back. -/
inductive EventError where
  /-- The database failed at the given step. -/
  | access (step : String) (e : AccessError)
  /-- The number of an event is negative. -/
  | idOverflow
  /-- The number after which events are wanted is too large. -/
  | afterOverflow
deriving DecidableEq, Repr

/-- The text of an error with its causes behind it. -/
def EventError.message : EventError → String
  | .access step e => step ++ ": " ++ e.chain
  | .idOverflow => "config event id overflow"
  | .afterOverflow => "after_event_id overflow"

namespace Node

/-- Hands every notification that arrived to every listener. -/
def settle : StateM Node Unit := modify fun n =>
  let relayed := n.arrived.flatMap fun payload => List.replicate n.listeners payload
  { n with arrived := [], feed := relayed.foldl (relay n.id) n.feed }

/-- The announcement of a configuration under the number that the database gave. -/
def updateOf (c : ServerConfig) : Answer → Except EventError Update
  | .eventId id => if 0 ≤ id then .ok (.ofConfig c id.toNat) else .error .idOverflow
  | _ => .error .idOverflow

/-- Records an announcement and notifies the nodes, as the node named `origin`; gives
the announcement that is to be published on the feed of that node. -/
def sendUpdate (origin : String) (t : Token) (c : ServerConfig) :
    StateM Node (Except AnnounceFailure Update) := do
  if isCancelled t (← get) then return .error .cancelled
  match ← acquire with
  | .error e => return .error (.unavailable e.text)
  | .ok p =>
    match ← send t p.session .begin with
    | (.abandoned, session) =>
      release session.pooled
      return .error .cancelled
    | (.failed e, session) =>
      release session.pooled
      return .error (.unavailable (AccessError.database e).text)
    | (.answered _, session) =>
      match ← send t session (.insertEvent c.name c.digest) with
      | (.abandoned, _) =>
        release .outside
        return .error .cancelled
      | (.failed e, _) =>
        release .outside
        return .error (.unavailable (EventError.access "insert config event" (.database e)).message)
      | (.answered answer, session) =>
        match updateOf c answer with
        | .error e =>
          release .outside
          return .error (.unavailable e.message)
        | .ok update =>
          match ← send t session (.notify announceChannel (Dispatch.payload ⟨origin, update⟩)) with
          | (.abandoned, _) =>
            release .outside
            return .error .cancelled
          | (.failed e, _) =>
            release .outside
            return .error (.unavailable (EventError.access "pg_notify" (.database e)).message)
          | (.answered _, session) =>
            let (reply, _) ← send t session .commit
            release .outside
            match reply with
            | .failed e =>
              return .error
                (.unavailable ("commit config event: " ++ (AccessError.database e).text))
            | _ => return .ok update

/-- Announces a configuration. -/
def announce (t : Token) (c : ServerConfig) : StateM Node (Except AnnounceFailure Unit) := do
  match ← sendUpdate (← get).id t c with
  | .error e => return .error e
  | .ok update =>
    modify fun n => { n with feed := (n.feed.publish update).2 }
    settle
    return .ok ()

/-- The announcement of a recorded event. -/
def recordedUpdate (e : EventRow) (c : ConfigRow) : Except EventError Update :=
  if 0 ≤ e.id then .ok ⟨e.name, c.tenant, c.pathPrefix, e.hash, e.id.toNat⟩ else .error .idOverflow

/-- The events recorded after a number, the oldest first, at most `limit` of them. -/
def replay (after : Nat) (limit : Int) : StateM Node (Except EventError (List Update)) := do
  if 0x8000000000000000 ≤ after then return .error .afterOverflow
  match ← query (.replay after limit) with
  | .error e => return .error (.access "select config events" e)
  | .ok (.events rows) => return rows.mapM fun (e, c) => recordedUpdate e c
  | .ok _ => return .ok []

/-! ## Listeners -/

/-- Opens a connection of its own and listens on it. -/
def openListener : StateM Node (Except EventError Unit) := fun n =>
  match n.server.refusal with
  | some e => (.error (.access "connect PgListener" (.database e)), n)
  | none =>
    let (effect, server) := n.server.run none (.listen announceChannel)
    let n := { n with server }
    match effect.answer with
    | .error e => (.error (.access ("LISTEN " ++ announceChannel) (.database e)), n)
    | .ok _ => (.ok (), n)

/-- Starts to relay what other nodes send.  A node that is shutting down stops at once. -/
def listen : StateM Node (Except EventError Unit) := do
  if !(← get).isOpen then return .error (.access "connect PgListener" .closed)
  match ← openListener with
  | .error e => return .error e
  | .ok () =>
    modify fun n => { n with listeners := n.listeners + if n.closing then 0 else 1 }
    return .ok ()

/-- Connects every listener again after its connection was lost; one that cannot connect
stops. -/
def reopenListeners : StateM Node Unit := do
  for _ in List.range (← get).listeners do
    match ← openListener with
    | .ok () => pure ()
    | .error _ => modify fun n => { n with listeners := n.listeners - 1 }

/-- Shuts the node down, and with it its listeners. -/
def shutDown : StateM Node Unit := modify fun n => { n with closing := true, listeners := 0 }

/-- Closes the pool, which also ends the listeners. -/
def close : StateM Node Unit := modify fun n => { n with isOpen := false, listeners := 0 }

open Import in
/-- The workbench of a node that converts by the given settings. -/
def bench (settings : Settings) : Workbench Token Node where
  convert destination document := pure (ApiIntake.convert settings destination document)
  create := create
  get := lookUp
  list := listAll
  announce := announce

end Node

end ApiIntake.Database
