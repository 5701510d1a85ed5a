import ApiIntake.Yaml.Value

/-!
# Forms of a schema object

A schema object is read as one of a few forms: a typed one if it names one of six
types and every other constraint in it belongs to that type, a combination if it
holds one of four keywords and no other constraint, and otherwise as a schema of any
value.  A constraint counts as present even if it is empty.
-/

namespace ApiIntake.OpenApi

open ApiIntake.Yaml (Value Scalar)

/-- The form of a schema object. -/
inductive SchemaForm where
  | string
  | number
  | integer
  | boolean
  | array
  | object
  | oneOf
  | anyOf
  | allOf
  | not
  | any
deriving DecidableEq, Repr

namespace SchemaForm

/-- The fields of a schema object that are present: their keys are texts and their
values are not null. -/
def present (entries : List (Value × Value)) : List (String × Value) :=
  entries.filterMap fun (k, v) =>
    match k, v with
    | _, .scalar .null _ => none
    | .scalar (.str k) _, v => some (k, v)
    | _, _ => none

/-- The fields that constrain values. -/
def constraints : List String :=
  ["type", "pattern", "format", "multipleOf", "minimum", "maximum", "exclusiveMinimum",
   "exclusiveMaximum", "properties", "required", "additionalProperties", "minProperties",
   "maxProperties", "items", "minItems", "maxItems", "uniqueItems", "enum", "minLength",
   "maxLength", "oneOf", "allOf", "anyOf", "not"]

/-- The items of a list, none for any other value. -/
def items : Value → List Value
  | .list vs => vs
  | _ => []

/-- Whether a value is null or passes a test on scalars. -/
def nullOr (p : Scalar → Bool) : Value → Bool
  | .scalar .null _ => true
  | .scalar s _ => p s
  | _ => false

/-- A text. -/
def isText : Scalar → Bool
  | .str _ => true
  | _ => false

/-- A number of any kind. -/
def isNumber : Scalar → Bool
  | .int _ | .float _ | .infinity _ | .nan => true
  | _ => false

/-- A whole number of the signed 64-bit range. -/
def isWhole : Scalar → Bool
  | .int n => n < 0x8000000000000000
  | _ => false

/-- A truth value. -/
def isFlag : Scalar → Bool
  | .bool _ => true
  | _ => false

/-- The fields that bound a number. -/
def limits : List String := ["multipleOf", "minimum", "maximum"]

/-- Whether every number that a numeric schema states is whole. -/
def numbersWhole (fields : List (String × Value)) : Bool :=
  fields.all fun (k, v) =>
    if limits.contains k then nullOr isWhole v else true

/-- The form of a schema object with the given entries. -/
def ofEntries (entries : List (Value × Value)) : SchemaForm :=
  let fields := present entries
  let names := (fields.map (·.1)).filter constraints.contains
  let within (allowed : List String) : Bool := names.all fun n => n = "type" || allowed.contains n
  let choices (p : Scalar → Bool) : Bool :=
    (fields.lookup "enum").all fun v => (items v).all (nullOr p)
  let numeric := ["format", "multipleOf", "exclusiveMinimum", "exclusiveMaximum", "minimum",
    "maximum", "enum"]
  match fields.lookup "type" with
  | some (.scalar (.str type) _) =>
    if type = "string" ∧ within ["format", "pattern", "enum", "minLength", "maxLength"] ∧
        choices isText then .string
    else if type = "number" ∧ within numeric ∧ choices isNumber then .number
    else if type = "integer" ∧ within numeric ∧ choices isWhole ∧ numbersWhole fields then .integer
    else if type = "boolean" ∧ within ["enum"] ∧ choices isFlag then .boolean
    else if type = "array" ∧ within ["items", "minItems", "maxItems", "uniqueItems"] then .array
    else if type = "object" ∧
        within ["properties", "required", "additionalProperties", "minProperties",
          "maxProperties"] then
      .object
    else .any
  | _ =>
    if names = ["oneOf"] then .oneOf
    else if names = ["anyOf"] then .anyOf
    else if names = ["allOf"] then .allOf
    else if names = ["not"] then .not
    else .any

/-- Whether a field is written although it holds nothing: only the list of a
combination is. -/
def writesEmpty (form : SchemaForm) (name : String) : Bool :=
  match form with
  | .oneOf => name = "oneOf"
  | .anyOf => name = "anyOf"
  | .allOf => name = "allOf"
  | _ => false

end SchemaForm

end ApiIntake.OpenApi
