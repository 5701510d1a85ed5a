import ApiIntake.EventStream.Item
import ApiIntake.Json.Parser

/-!
# Reading named events

A reader looks for the next event of a name and passes over all others.  The data of
the event is read as JSON.
-/

namespace ApiIntake.EventStream

/-- An event that was asked for. -/
structure NamedEvent where
  /-- The name. -/
  name : String
  /-- The id. -/
  id : Option String
  /-- The data. -/
  data : Json

/-- Why no event is found. -/
inductive ReadError where
  /-- A line of the stream was refused. -/
  | refused
  /-- The data of the event is no JSON. -/
  | notJson (data : String)
  /-- The stream ended before such an event. -/
  | ended (name : String)
  /-- The stream goes on but no such event came in time. -/
  | timedOut (name : String)
deriving DecidableEq, Repr

/-- The text of an error. -/
def ReadError.message : ReadError → String
  | .refused => "read SSE event"
  | .notJson data => "parse SSE data as JSON: " ++ data
  | .ended name => "event-stream ended before a '" ++ name ++ "' event"
  | .timedOut name => "timed out waiting for '" ++ name ++ "' event"

/-- A stream of which a part was read. -/
structure Reader where
  /-- What is still to be met. -/
  rest : List Item
  /-- Whether the stream goes on behind that. -/
  goesOn : Bool

namespace Reader

/-- A stream that arrives in the given pieces. -/
def ofPieces (pieces : List (List UInt8)) (goesOn : Bool) : Reader := ⟨items pieces, goesOn⟩

/-- The next event of a name among what is still to be met, and what comes after it. -/
def find (name : String) : List Item → Option (Except ReadError NamedEvent) × List Item
  | [] => (none, [])
  | .refused :: rest => (some (.error .refused), rest)
  | .event fields :: rest =>
    if fields.name = some name then
      let data := fields.data.getD ""
      match Json.parse? data with
      | some data => (some (.ok ⟨name, fields.id, data⟩), rest)
      | none => (some (.error (.notJson data)), rest)
    else find name rest

/-- Reads up to the next event of a name. -/
def next (r : Reader) (name : String) : Except ReadError NamedEvent × Reader :=
  match find name r.rest with
  | (some result, rest) => (result, { r with rest })
  | (none, rest) => (.error (if r.goesOn then .timedOut name else .ended name), { r with rest })

end Reader

end ApiIntake.EventStream
