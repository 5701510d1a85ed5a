import ApiIntake.OpenApi.Conform

/-!
# Schemas

A schema as far as tools are made from it: its form, its description and default
value, and the schemas inside it, each of which may be a reference.  Constraints
that do not reach a tool are dropped here; whether they are well formed is settled
by `Shape.conform`.
-/

namespace ApiIntake.OpenApi

open ApiIntake.Yaml (Value Scalar)

/-- What a schema says besides its form. -/
structure Notes where
  /-- The description. -/
  description : Option String
  /-- The default value. -/
  default : Option Json

/-- The types without parts. -/
inductive Primitive where
  | number
  | integer
  | boolean
deriving DecidableEq, Repr

/-- The ways to combine a list of schemas. -/
inductive Combination where
  | oneOf
  | anyOf
  | allOf
deriving DecidableEq, Repr

/-- A schema or a reference to one. -/
inductive Schema where
  /-- A reference. -/
  | ref (target : String)
  /-- Texts, out of a list if it is not empty. -/
  | string (notes : Notes) (choices : List (Option String))
  | primitive (notes : Notes) (type : Primitive)
  | array (notes : Notes) (items : Option Schema)
  | object (notes : Notes) (properties : List (String × Schema)) (required : List String)
  | combined (notes : Notes) (how : Combination) (parts : List Schema)
  | negated (notes : Notes) (part : Schema)
  /-- Any value. -/
  | any (notes : Notes)

namespace Schema

/-- The description and default value among the fields of a schema object. -/
def notesOf (entries : List (Value × Value)) : Notes where
  description := textOf? entries "description"
  default := (((SchemaForm.present entries).lookup "default").bind Value.toJson?).map Json.sorted

/-- The schemas that one field of a schema object holds. -/
inductive Part where
  | one (s : Schema)
  | many (parts : List Schema)
  | named (parts : List (String × Schema))
  | none

/-- The schema of a field that holds one. -/
def Part.one? : Part → Option Schema
  | .one s => some s
  | _ => Option.none

/-- The schemas of a field that holds a list of them. -/
def Part.list : Part → List Schema
  | .many parts => parts
  | _ => []

/-- The schemas of a field that holds them by name. -/
def Part.table : Part → List (String × Schema)
  | .named parts => parts
  | _ => []

/-- The texts of a list, those that are null apart. -/
def choicesOf (v : Value) : List (Option String) :=
  (SchemaForm.items v).map fun
    | .scalar (.str s) _ => some s
    | _ => Option.none

/-- The schema of an object with the given entries and the schemas in its fields. -/
def assemble (entries : List (Value × Value)) (parts : List (String × Part)) : Schema :=
  let notes := notesOf entries
  let fields := SchemaForm.present entries
  let part (name : String) : Part := (parts.lookup name).getD .none
  match SchemaForm.ofEntries entries with
  | .string => .string notes (((fields.lookup "enum").map choicesOf).getD [])
  | .number => .primitive notes .number
  | .integer => .primitive notes .integer
  | .boolean => .primitive notes .boolean
  | .array => .array notes (part "items").one?
  | .object =>
    let required := ((fields.lookup "required").map choicesOf).getD []
    .object notes (part "properties").table (required.filterMap id)
  | .oneOf => .combined notes .oneOf (part "oneOf").list
  | .anyOf => .combined notes .anyOf (part "anyOf").list
  | .allOf => .combined notes .allOf (part "allOf").list
  | .not =>
    match (part "not").one? with
    | some s => .negated notes s
    | Option.none => .any notes
  | .any => .any notes

mutual

/-- The schema that a value spells out; what is no object is a schema of any value. -/
def ofValue : Value → Schema
  | .map entries =>
    match textOf? entries "$ref" with
    | some target => .ref target
    | Option.none => assemble entries (partsOf entries)
  | _ => .any ⟨Option.none, Option.none⟩

/-- The schemas in the fields of an object. -/
def partsOf : List (Value × Value) → List (String × Part)
  | [] => []
  | (.scalar (.str key) _, v) :: rest =>
    let part : Part :=
      if key = "items" ∨ key = "not" then
        match v with
        | .map _ => .one (ofValue v)
        | _ => .none
      else if key = "properties" then
        match v with
        | .map entries => .named (ofTable entries)
        | _ => .none
      else if key = "oneOf" ∨ key = "anyOf" ∨ key = "allOf" then
        match v with
        | .list items => .many (ofList items)
        | _ => .none
      else .none
    (key, part) :: partsOf rest
  | _ :: rest => partsOf rest

/-- The schemas of a list. -/
def ofList : List Value → List Schema
  | [] => []
  | v :: rest => ofValue v :: ofList rest

/-- The schemas of a table. -/
def ofTable : List (Value × Value) → List (String × Schema)
  | [] => []
  | (.scalar (.str name) _, v) :: rest => (name, ofValue v) :: ofTable rest
  | _ :: rest => ofTable rest

end

end Schema

end ApiIntake.OpenApi
