import ApiIntake.OpenApi.Shape
import ApiIntake.OpenApi.SchemaForm

/-!
# Documents that conform to their shape

`Shape.conform` checks data against a shape and gives its JSON form: the known
fields that hold something, and the extensions.  How strictly the data is read
depends on the place.  The outer objects of a document are read leniently: their
scalars may stand for empty lists, and tags are passed over.  Within a path item or
a component everything is read strictly.
-/

namespace ApiIntake.OpenApi

open ApiIntake.Yaml (Value Scalar)

/-- How data is read. -/
structure Reading where
  /-- Tags are passed over. -/
  untags : Bool
  /-- Any scalar is a text by the way it is written. -/
  anyText : Bool
  /-- A scalar, with its text, that stands for an empty list or object. -/
  standsForNothing : Scalar → String → Bool

namespace Reading

/-- Every value is of the very form that its place demands. -/
def strict : Reading := ⟨false, false, fun _ _ => false⟩

/-- Null stands for an empty list or object. -/
def settled : Reading := ⟨true, false, fun s _ => s = .null⟩

/-- Any scalar is a text, and one that is not written at all stands for an empty
list or object. -/
def written : Reading := ⟨true, true, fun s text => s = .null && text.isEmpty⟩

/-- The name that a key gives to a field.  A strict reader takes a whole number as
its decimal text. -/
def fieldName? (r : Reading) : Value → Option String
  | .scalar (.str k) _ => some k
  | .scalar (.int n) text =>
    if r.anyText then some text
    else if r.untags then none
    else if 0 ≤ n then some (toString n.toNat) else none
  | .scalar _ text => if r.anyText then some text else none
  | _ => none

/-- The key of an entry of a table. -/
def tableKey? (r : Reading) : Value → Option String
  | .scalar (.str k) _ => some k
  | .scalar _ text => if r.anyText then some text else none
  | _ => none

end Reading

mutual

/-- Whether a value holds no tag, no number beyond 64 bits and no scalar that is not what
its tag says. -/
def isPlain : Value → Bool
  | .scalar (.huge _) _ | .scalar .mistagged _ => false
  | .scalar _ _ => true
  | .list items => plainItems items
  | .map entries => plainEntries entries
  | .tagged _ _ => false

/-- `isPlain` on every item. -/
def plainItems : List Value → Bool
  | [] => true
  | v :: rest => isPlain v && plainItems rest

/-- `isPlain` on every key and value. -/
def plainEntries : List (Value × Value) → Bool
  | [] => true
  | (k, v) :: rest => isPlain k && isPlain v && plainEntries rest

end

/-- The status code or range of codes that a key names, a range in capitals. -/
def statusCode? (key : String) : Option String :=
  match key.toList with
  | [a, b, c] =>
    if a.isDigit ∧ b.isDigit ∧ c.isDigit then some key
    else if a.isDigit ∧ (b = 'x' ∨ b = 'X') ∧ (c = 'x' ∨ c = 'X') then
      some (String.ofList [a, 'X', 'X'])
    else none
  | _ => none

/-- Whether a JSON value is what a defaulted field falls back on. -/
def holdsNothing : Json → Bool
  | .bool b => !b
  | .arr items => items.isEmpty
  | .obj members => members.isEmpty
  | _ => false

/-- Whether a value is null. -/
def isNull : Value → Bool
  | .scalar .null _ => true
  | _ => false

/-- The text of the entry with a key, if it is one. -/
def textOf? (entries : List (Value × Value)) (key : String) : Option String :=
  entries.findSome? fun
    | (.scalar (.str k) _, .scalar (.str s) _) => if k = key then some s else none
    | _ => none

/-- The JSON form of a scalar at a place of the given shape. -/
def conformScalar (r : Reading) (shape : Shape) (s : Scalar) (text : String) : Option Json :=
  match shape with
  | .anything => (Value.scalar s text).toJson?
  | .text =>
    match s with
    | .str s => some (.str s)
    | _ => if r.anyText then some (.str text) else none
  | .flag | .flagOrSchema =>
    match s with
    | .bool b => some (.bool b)
    | _ => none
  | .real =>
    match s with
    | .int n => (Binary64.ofInt? n).map .float
    | .float x => some (.float x)
    | .infinity _ | .nan => some .null
    | _ => none
  | .count =>
    match s with
    | .int n => if 0 ≤ n then some (.int n) else none
    | _ => none
  | .choice texts =>
    match s with
    | .str s => if texts.contains s then some (.str s) else none
    | _ => none
  | .list _ => if r.standsForNothing s text then some (.arr []) else none
  | .table _ => if r.standsForNothing s text then some (.obj []) else none
  | .object kind =>
    -- an object without any entry, which a kind with a required field does not allow
    if r.standsForNothing s text then
      match kind.fields? [] fun _ => none with
      | some fields => if fields.any (·.presence = .required) then none else some (.obj [])
      | none => none
    else none
  | .refOr _ => none

/-- Whether every required field is there and no known field is there twice. -/
def fieldsInOrder (fields : List Field) (names : List String) : Bool :=
  fields.all fun f =>
    (f.presence ≠ .required || names.contains f.name) && names.count f.name ≤ 1

/-- The members of an object of a kind.  Those of a schema that hold nothing are left
out unless the form of the schema writes them, and the limits of a schema of whole
numbers are written as whole numbers. -/
def settleMembers (kind : Kind) (entries : List (Value × Value)) (members : List (String × Json)) :
    List (String × Json) :=
  if kind = .schema then
    let form := SchemaForm.ofEntries entries
    let fields := SchemaForm.present entries
    let emptied := ["properties", "required", "enum", "oneOf", "anyOf", "allOf"]
    let kept := members.filter fun (k, v) =>
      !(emptied.contains k && holdsNothing v && !form.writesEmpty k)
    kept.map fun (k, v) =>
      if form = .integer ∧ SchemaForm.limits.contains k then
        (k, ((fields.lookup k).bind Value.toJson?).getD v)
      else (k, v)
  else members

mutual

/-- The JSON form of a value at a place of the given shape, if it has that shape. -/
def Shape.conform (r : Reading) (shape : Shape) : Value → Option Json
  | .tagged _ v => if r.untags then Shape.conform r shape v else none
  | .scalar s text => conformScalar r shape s text
  | .list items =>
    match shape with
    | .anything => (Value.list items).toJson?
    | .list item => (conformItems r item items).map .arr
    | _ => none
  | .map entries =>
    let object (r : Reading) (kind : Kind) : Option Json := do
      let names ← entries.mapM fun e => r.fieldName? e.1
      let fields ← kind.fields? names (textOf? entries)
      let members ← conformEntries r fields kind.others entries
      if fieldsInOrder fields names then some (.obj (settleMembers kind entries members)) else none
    -- a reference is one whatever stands beside it
    let reference (kind : Kind) : Option Json :=
      if plainEntries entries then
        match textOf? entries "$ref" with
        | some target => some (.obj [("$ref", .str target)])
        | none => object .strict kind
      else none
    match shape with
    | .anything => (Value.map entries).toJson?
    | .table item => (conformTable r item entries).map .obj
    | .object kind => object r kind
    | .refOr kind => reference kind
    | .flagOrSchema => reference .schema
    | _ => none

/-- `Shape.conform` on every item. -/
def conformItems (r : Reading) (item : Shape) : List Value → Option (List Json)
  | [] => some []
  | v :: rest => do
    let v ← item.conform r v
    let rest ← conformItems r item rest
    some (v :: rest)

/-- `Shape.conform` on the value of every entry of a table. -/
def conformTable (r : Reading) (item : Shape) : List (Value × Value) → Option (List (String × Json))
  | [] => some []
  | (k, v) :: rest => do
    let k ← r.tableKey? k
    let v ← item.conform r v
    let rest ← conformTable r item rest
    some ((k, v) :: rest)

/-- The members that the entries of an object come to. -/
def conformEntries (r : Reading) (fields : List Field) (others : Others) :
    List (Value × Value) → Option (List (String × Json))
  | [] => some []
  | (k, v) :: rest => do
    let name ← r.fieldName? k
    let member : Option (String × Json) ←
      match fields.find? (·.name = name) with
      | some f =>
        if f.presence = .optional ∧ isNull v then some none
        else do
          let j ← f.shape.conform r v
          some (if f.presence = .defaulted ∧ holdsNothing j then none else some (name, j))
      | none =>
        if !isPlain v then none
        else if name.startsWith "x-" then v.toJson?.map fun j => some (name, j)
        else if others = .pathItems ∧ name.startsWith "/" then
          ((Shape.refOr .pathItem).conform .strict v).map fun j => some (name, j)
        else if others = .statusCodes then
          match statusCode? name with
          | some code => ((Shape.refOr .response).conform .strict v).map fun j => some (code, j)
          | none => some none
        else some none
    let rest ← conformEntries r fields others rest
    some (member.toList ++ rest)

end

end ApiIntake.OpenApi
