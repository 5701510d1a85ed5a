import ApiIntake.Tool.Basic

/-!
# Updates

What is announced when a configuration has been stored or announced again: where the
server is, the hash of its configuration, and the number of the event.
-/

namespace ApiIntake.Feed

/-- An announcement. -/
structure Update where
  /-- The name of the server. -/
  name : String
  /-- Whom it belongs to. -/
  tenant : String
  /-- Where it is mounted. -/
  pathPrefix : String
  /-- The hash of its configuration. -/
  configHash : String
  /-- The number of the event. -/
  eventId : Nat
deriving DecidableEq, Repr

namespace Update

/-- The announcement of a configuration. -/
def ofConfig (c : ServerConfig) (eventId : Nat) : Update where
  name := c.name
  tenant := c.tenant
  pathPrefix := c.pathPrefix
  configHash := c.digest
  eventId := eventId

/-- The fields of the JSON form, in their order. -/
def fieldNames : List String := ["name", "tenant", "prefix", "configHash", "eventId"]

/-- The JSON form. -/
def toJson (u : Update) : Json :=
  .obj
    [("name", .str u.name), ("tenant", .str u.tenant), ("prefix", .str u.pathPrefix),
     ("configHash", .str u.configHash), ("eventId", .int u.eventId)]

/-- The event numbers are those below this one, which are the numbers of 64 bits. -/
def eventIdBound : Nat := 0x10000000000000000

/-- Reads an event number. -/
def eventIdOfJson? : Json → Option Nat
  | .int n => if 0 ≤ n ∧ n < eventIdBound then some n.toNat else none
  | _ => none

/-- Reads an announcement; no field may be given twice. -/
def ofJson? (j : Json) : Option Update := do
  let fields ← j.record? fieldNames
  if !Json.onceEach fieldNames fields then none
  else
    some
      { name := ← Json.requiredText? fields "name"
        tenant := ← Json.requiredText? fields "tenant"
        pathPrefix := ← Json.requiredText? fields "prefix"
        configHash := ← Json.requiredText? fields "configHash"
        eventId := ← (fields.lookup "eventId").bind eventIdOfJson? }

end Update

end ApiIntake.Feed
