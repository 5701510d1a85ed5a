import ApiIntake.OpenApi.Document
import ApiIntake.Json.Pointer

/-!
# References inside a document

A reference is followed inside the JSON form of its document only: its text is a
number sign and a JSON pointer.  What it points to may be a reference again, and the
chain is followed until it reaches a thing of the expected kind, a reference that
cannot be followed, or one that has been followed before.
-/

namespace ApiIntake.OpenApi

open ApiIntake.Yaml (Value)

/-- Why a reference cannot be followed. -/
inductive RefFault where
  /-- It does not point into its document. -/
  | external
  /-- What follows the number sign is no JSON pointer. -/
  | notPointer
  /-- There is nothing where it points. -/
  | dangling
  /-- What it points to is not of the expected kind. -/
  | wrongKind
  /-- It has been followed before in the same chain. -/
  | cyclic
deriving DecidableEq, Repr

/-- A reference that cannot be followed. -/
structure RefError where
  /-- Why. -/
  fault : RefFault
  /-- The text of the reference. -/
  target : String
deriving DecidableEq, Repr

/-- What a reference may be followed in. -/
structure RefScope where
  /-- The JSON form of the document. -/
  root : Json

namespace RefScope

/-- The value that a reference points to. -/
def lookup (r : RefScope) (target : String) : Except RefError Json :=
  match target.toList with
  | '#' :: '/' :: rest =>
    match r.root.pointer? ('/' :: rest) with
    | some v => .ok v
    | none => .error ⟨.dangling, target⟩
  | '#' :: _ => .error ⟨.notPointer, target⟩
  | _ => .error ⟨.external, target⟩

/-- Follows one reference. -/
def follow {α : Type} (r : RefScope) (decode? : Value → Option (RefOr α)) (target : String) :
    Except RefError (RefOr α) := do
  let v ← r.lookup target
  match decode? (Value.ofJson v) with
  | some a => .ok a
  | none => .error ⟨.wrongKind, target⟩

/-- Follows a chain of references that have not been seen, `links` of them at most.
A chain with more links than the document has references comes back to one of them. -/
def chase {α : Type} (r : RefScope) (decode? : Value → Option (RefOr α)) :
    Nat → List String → RefOr α → Except RefError α
  | _, _, .inline a => .ok a
  | 0, _, .ref target => .error ⟨.cyclic, target⟩
  | links + 1, seen, .ref target =>
    if seen.contains target then .error ⟨.cyclic, target⟩
    else do
      let next ← r.follow decode? target
      r.chase decode? links (target :: seen) next

mutual

/-- The texts under the key of a reference, anywhere inside a value. -/
def refTexts : Json → List String
  | .arr items => refTextsItems items
  | .obj members => refTextsMembers members
  | _ => []

/-- `refTexts` of all items. -/
def refTextsItems : List Json → List String
  | [] => []
  | v :: rest => refTexts v ++ refTextsItems rest

/-- The texts under the key of a reference among the members, and those inside. -/
def refTextsMembers : List (String × Json) → List String
  | [] => []
  | (k, v) :: rest =>
    let here := match v with
      | .str s => if k = "$ref" then [s] else []
      | _ => []
    here ++ refTexts v ++ refTextsMembers rest

end

/-- A bound on the links of a chain: one for each reference of the document, the one
it begins with, and one to come back. -/
def linkBound (r : RefScope) : Nat := (refTexts r.root).length + 2

/-- The thing itself, by way of references if need be. -/
def resolve {α : Type} (r : RefScope) (decode? : Value → Option (RefOr α)) (a : RefOr α) :
    Except RefError α :=
  r.chase decode? r.linkBound [] a

end RefScope

end ApiIntake.OpenApi
