import ApiIntake.OpenApi.Reference

/-!
# Schemas without references

The JSON schema of a tool's argument: every reference is replaced by the schema it
stands for.  A reference that is met again while it is being replaced, as in a
recursive type, becomes a schema of any object instead.  `Schema.render` walks one
schema and leaves the meaning of references to its caller.  `RefScope.Walk` carries the
chain of the references that are being replaced: one is put on the chain where its
replacement begins and taken off where it ends, be it in an error.
-/

namespace ApiIntake.OpenApi

open ApiIntake.Yaml (Value)

/-- The schema of any object. -/
def anyObject : Json := .obj [("type", .str "object")]

/-- The name of a primitive type. -/
def Primitive.text : Primitive → String
  | .number => "number"
  | .integer => "integer"
  | .boolean => "boolean"

/-- The keyword of a combination. -/
def Combination.keyword : Combination → String
  | .oneOf => "oneOf"
  | .anyOf => "anyOf"
  | .allOf => "allOf"

namespace Schema

/-- The members of an object ascending by key: the given ones, the description and
the default value. -/
def withNotes (notes : Notes) (members : List (String × Json)) : Json :=
  .obj (Json.sortMembers
    (Json.optional "description" (notes.description.map .str) ++
      Json.optional "default" notes.default ++ members))

/-- A type and what follows it. -/
def typed (notes : Notes) (type : String) (members : List (String × Json)) : Json :=
  withNotes notes (("type", .str type) :: members)

/-- A list as a member that is left out if it is empty. -/
def listMember (key : String) (items : List Json) : List (String × Json) :=
  if items.isEmpty then [] else [(key, .arr items)]

/-- The JSON schema of texts. -/
def textSchema (notes : Notes) (choices : List (Option String)) : Json :=
  -- null among the choices is dropped, but still makes a list of choices
  let texts := choices.filterMap fun c => c.map Json.str
  typed notes "string" (if choices.isEmpty then [] else [("enum", .arr texts)])

/-- The JSON schema of an object with the JSON schemas of its properties. -/
def objectSchema (notes : Notes) (properties : List (String × Json)) (required : List String) :
    Json :=
  typed notes "object"
    ((if properties.isEmpty then [] else [("properties", .obj (Json.sortMembers properties))]) ++
      listMember "required" (required.map .str))

variable {m : Type → Type} [Monad m]

mutual

/-- The JSON schema of a schema, with `onRef` for the references in it. -/
def render (onRef : String → m Json) : Schema → m Json
  | .ref target => onRef target
  | .string notes choices => pure (textSchema notes choices)
  | .primitive notes type => pure (typed notes type.text [])
  | .array notes none => pure (typed notes "array" [])
  | .array notes (some items) => do
    let items ← items.render onRef
    pure (typed notes "array" [("items", items)])
  | .object notes properties required => do
    let properties ← renderTable onRef properties
    pure (objectSchema notes properties required)
  | .combined notes how parts => do
    let parts ← renderList onRef parts
    pure (withNotes notes [(how.keyword, .arr parts)])
  | .negated notes part => do
    let part ← part.render onRef
    pure (withNotes notes [("not", part)])
  | .any notes => pure (typed notes "object" [])

/-- `render` on every schema of a list. -/
def renderList (onRef : String → m Json) : List Schema → m (List Json)
  | [] => pure []
  | s :: rest => do
    let s ← s.render onRef
    let rest ← renderList onRef rest
    pure (s :: rest)

/-- `render` on every schema of a table. -/
def renderTable (onRef : String → m Json) : List (String × Schema) → m (List (String × Json))
  | [] => pure []
  | (name, s) :: rest => do
    let s ← s.render onRef
    let rest ← renderTable onRef rest
    pure ((name, s) :: rest)

end

end Schema

namespace RefScope

/-- The schema itself, by way of references if need be. -/
def schemaAt (r : RefScope) (target : String) : Except RefError Schema :=
  r.resolve Schema.decode? (.ref target)

/-- A walk through schemas.  Its state is the chain of the references that are being
replaced, the innermost first, and an error leaves a chain behind as well. -/
abbrev Walk := ExceptT RefError (StateM (List String))

namespace Walk

variable {α : Type}

/-- What comes of a walk that begins inside the references of a chain. -/
def startingAt (chain : List String) (w : Walk α) : Except RefError α := (w.run.run chain).1

/-- Goes on inside one more reference, which is taken off the chain in the end, also if the
walk fails there. -/
def inside (target : String) (w : Walk α) : Walk α := ExceptT.mk do
  modify (target :: ·)
  let result ← w.run
  modify List.tail
  return result

end Walk

/-- The JSON schema that a reference stands for.  No more than `links` references are
replaced inside one another; a chain without repetitions cannot be longer than the
document has references. -/
def expand (r : RefScope) : Nat → String → Walk Json
  | links, target => do
    if (← get).contains target then pure anyObject
    else match links with
      | 0 => throw ⟨.cyclic, target⟩
      | links + 1 => do
        let s ← MonadExcept.ofExcept (r.schemaAt target)
        Walk.inside target (s.render (r.expand links))

/-- The JSON schema of a schema without references. -/
def inline (r : RefScope) (s : Schema) : Walk Json := s.render (r.expand r.linkBound)

end RefScope

end ApiIntake.OpenApi
