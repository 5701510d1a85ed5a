import ApiIntake.Feed.Update
import ApiIntake.Proofs.Json.Text

/-!
# Announcements as JSON

The JSON form of an announcement is read as the announcement (`Feed.Update.ofJson?_toJson`),
whatever texts it holds, if its number is one of 64 bits.
-/

namespace ApiIntake

open ApiIntake.Feed (Update)

/-- A number of 64 bits is read as it is. -/
theorem Json.isPlain_int {n : Nat} (h : n < Update.eventIdBound) :
  (Json.int n).isPlain = true
  := by
  have hn : -0x8000000000000000 ≤ (n : Int) ∧ (n : Int) < 0x10000000000000000 := by
    constructor
    · omega
    · apply Int.ofNat_lt.mpr h
  rw [isPlain, decide_eq_true hn]

namespace Feed.Update

variable {u : Update}

/-- The number of an event is read as that number. -/
theorem eventIdOfJson?_int {n : Nat} (h : n < eventIdBound) :
  eventIdOfJson? (.int n) = some n
  := by
  have hn : (0 : Int) ≤ n ∧ (n : Int) < eventIdBound := by
    constructor
    · apply Int.natCast_nonneg
    · apply Int.ofNat_lt.mpr h
  rw [eventIdOfJson?, if_pos hn, Int.toNat_natCast]

/-- The members of the JSON form, with any value for the number. -/
def membersWith (u : Update) (eventId : Json) : List (String × Json) :=
  [("name", .str u.name), ("tenant", .str u.tenant), ("prefix", .str u.pathPrefix),
    ("configHash", .str u.configHash), ("eventId", eventId)]

/-- The JSON form is read as the announcement. -/
theorem ofJson?_toJson (h : u.eventId < eventIdBound) :
  ofJson? u.toJson = some u
  := by
  have hj : ∀ j, ofJson? (.obj (u.membersWith j)) =
      (eventIdOfJson? j).bind fun eventId => some { u with eventId } := by
    intro j
    rfl
  change ofJson? (.obj (u.membersWith (.int u.eventId))) = _
  rw [hj, eventIdOfJson?_int h]
  rfl

/-- The JSON form holds texts and one number of 64 bits. -/
theorem isPlain_toJson (h : u.eventId < eventIdBound) :
  u.toJson.isPlain = true
  := by
  have hj : ∀ j, (Json.obj (u.membersWith j)).isPlain = (j.isPlain && true) := by
    intro j
    rfl
  change (Json.obj (u.membersWith (.int u.eventId))).isPlain = true
  rw [hj, Json.isPlain_int h]
  rfl

end Feed.Update

end ApiIntake
