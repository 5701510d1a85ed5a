import ApiIntake.Database.Relay
import ApiIntake.Proofs.Feed.JsonForm

/-!
# Notifications

The payload of a notification is read as the announcement that was written
(`Dispatch.ofPayload?_payload`), whatever texts that holds.  So a node relays what other nodes
announce, and passes over what it announced itself (`foreign?_payload`).
-/

namespace ApiIntake.Database

open ApiIntake.Feed (Update Broadcast)

/-- The members of the JSON form of an announcement, with any value for its number. -/
def Dispatch.membersWith (e : Dispatch) (eventId : Json) : List (String × Json) :=
  [(originKey, .str e.origin), ("name", .str e.update.name), ("tenant", .str e.update.tenant),
    ("prefix", .str e.update.pathPrefix), ("configHash", .str e.update.configHash),
    ("eventId", eventId)]

namespace Dispatch

variable {e : Dispatch}

/-- All fields but the number are texts, which are read as they stand. -/
theorem ofJson?_membersWith (e : Dispatch) (j : Json) :
  ofJson? (.obj (e.membersWith j)) =
    (Update.eventIdOfJson? j).map fun eventId => ⟨e.origin, { e.update with eventId }⟩
  := by
  have h : Update.ofJson? (.obj (e.membersWith j)) =
      (Update.eventIdOfJson? j).map fun eventId => { e.update with eventId } := by
    change ((Update.eventIdOfJson? j).bind fun eventId => some { e.update with eventId }) = _
    cases Update.eventIdOfJson? j <;> rfl
  change ((Update.ofJson? (.obj (e.membersWith j))).bind fun u =>
    some (Dispatch.mk e.origin u)) = _
  rw [h]
  cases Update.eventIdOfJson? j <;> rfl

/-- The JSON form is read as the announcement. -/
theorem ofJson?_toJson (h : e.update.eventId < Update.eventIdBound) :
  ofJson? e.toJson = some e
  := by
  have hj : e.toJson = .obj (e.membersWith (.int e.update.eventId)) := rfl
  rw [hj, ofJson?_membersWith, Update.eventIdOfJson?_int h]
  rfl

/-- The JSON form holds texts and one number of 64 bits. -/
theorem isPlain_toJson (h : e.update.eventId < Update.eventIdBound) :
  e.toJson.isPlain = true
  := by
  have hj : ∀ j, (Json.obj (e.membersWith j)).isPlain = (j.isPlain && true) := by
    intro j
    rfl
  change (Json.obj (e.membersWith (.int e.update.eventId))).isPlain = true
  rw [hj, Json.isPlain_int h]
  rfl

/-- The payload is read as the announcement. -/
theorem ofPayload?_payload (h : e.update.eventId < Update.eventIdBound) :
  ofPayload? e.payload = some e
  := by
  have hd : e.toJson.depth ≤ Json.depthLimit := by
    change 1 ≤ Json.depthLimit
    decide
  rw [ofPayload?, payload, Json.parse?_compact (isPlain_toJson h) hd, Option.bind_some,
    ofJson?_toJson h]

end Dispatch

/-- The announcement of a payload that can be read and comes from another node. -/
def foreign? (node payload : String) : Option Update :=
  (Dispatch.ofPayload? payload).bind fun e => if e.origin = node then none else some e.update

/-- A node relays what comes from other nodes, and nothing else. -/
theorem relay_eq (node : String) (b : Broadcast) (payload : String) :
  relay node b payload = (((foreign? node payload).map fun u => (b.publish u).2).getD b)
  := by
  rw [relay, foreign?]
  cases Dispatch.ofPayload? payload with
  | none => rfl
  | some e =>
      rw [Option.bind_some]
      by_cases h : e.origin = node
      · simp [h]
      · simp [h]

/-- What a node announces is foreign to all others. -/
theorem foreign?_payload {e : Dispatch} (h : e.update.eventId < Update.eventIdBound)
    (node : String) :
  foreign? node e.payload = if e.origin = node then none else some e.update
  := by
  rw [foreign?, Dispatch.ofPayload?_payload h]
  rfl

end ApiIntake.Database
