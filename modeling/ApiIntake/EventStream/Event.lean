import ApiIntake.Feed.Broadcast
import ApiIntake.Json.Printer

/-!
# Events of an event stream

An event is written as a few lines `field: value` and an empty line behind them.
Announcements become events named `config_updated` with their number as the id, and a
gap becomes an event named `lagged`.
-/

namespace ApiIntake.EventStream

/-- An event with a name and data. -/
structure Event where
  /-- The name. -/
  name : String
  /-- The id. -/
  id : Option String
  /-- The data. -/
  data : String
deriving DecidableEq, Repr

namespace Event

/-- The line of a field. -/
def line (field value : String) : String := field ++ ": " ++ value ++ "\n"

/-- The text of an event; each line of its data becomes a field of its own. -/
def text (e : Event) : String :=
  line "event" e.name ++ ((e.id.map (line "id")).getD "") ++
    String.join ((e.data.toList.splitOn '\n').map fun cs => line "data" (String.ofList cs)) ++ "\n"

/-- The name of an event that announces. -/
def updatedName : String := "config_updated"

/-- The name of an event that tells of a gap. -/
def laggedName : String := "lagged"

/-- The event of what a subscriber reads. -/
def ofDelivery : Feed.Delivery → Event
  | .updated u => ⟨updatedName, some (toString u.eventId), u.toJson.compact⟩
  | .lagged missed => ⟨laggedName, none, toString missed⟩

end Event

/-- The text of what a subscriber reads. -/
def textOf (ds : List Feed.Delivery) : String :=
  String.join (ds.map fun d => (Event.ofDelivery d).text)

/-- The text that is ready for a stream, and whether the stream goes on.  A stream that is
closing ends before anything that still waits. -/
def follow (b : Feed.Broadcast) (id : Nat) (closing : Bool) : (String × Bool) × Feed.Broadcast :=
  if closing then (("", false), b)
  else
    let (ds, b) := b.drain id
    ((textOf ds, true), b)

end ApiIntake.EventStream
