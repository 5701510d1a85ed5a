import ApiIntake.Json.Basic

/-!
# Records in JSON

A record is an object whose members are its fields, or an array of the values of its
fields in their order, which may stop early.  Fields beyond the known ones are passed
over in an object and refused in an array.
-/

namespace ApiIntake.Json

/-- The fields of a record with the given names. -/
def record? (names : List String) : Json → Option (List (String × Json))
  | .obj members => some members
  | .arr items => if items.length ≤ names.length then some (names.zip items) else none
  | _ => none

/-- Whether no name of a record occurs twice among its fields. -/
def onceEach (names : List String) (fields : List (String × Json)) : Bool :=
  names.all fun n => (fields.filter fun f => f.1 = n).length ≤ 1

/-- A text that has to be there. -/
def requiredText? (fields : List (String × Json)) (name : String) : Option String :=
  (fields.lookup name).bind text?

/-- A text that may be absent or null; `none` if something else stands there. -/
def optionalText? (fields : List (String × Json)) (name : String) : Option (Option String) :=
  match fields.lookup name with
  | none | some .null => some none
  | some (.str s) => some (some s)
  | some _ => none

/-- A truth value that has to be there. -/
def requiredFlag? (fields : List (String × Json)) (name : String) : Option Bool :=
  match fields.lookup name with
  | some (.bool b) => some b
  | _ => none

/-- A list that may be absent, with all items read. -/
def listOrEmpty? {α : Type} (read : Json → Option α) (fields : List (String × Json))
    (name : String) :
    Option (List α) :=
  match fields.lookup name with
  | none => some []
  | some (.arr items) => items.mapM read
  | some _ => none

/-- An object that may be absent. -/
def tableOrEmpty? (fields : List (String × Json)) (name : String) :
    Option (List (String × Json)) :=
  match fields.lookup name with
  | none => some []
  | some (.obj members) => some members
  | some _ => none

end ApiIntake.Json
