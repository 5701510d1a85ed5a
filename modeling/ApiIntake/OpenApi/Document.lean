import ApiIntake.OpenApi.Schema

/-!
# API documents

The parts of a document that tools are made from: path items with the operations of
each method, parameters and request bodies, any of which may be a reference.
`decode?` reads a value of one of these types where the value conforms to its shape.
A document also keeps its JSON form with the members of every object in ascending
order, which is what references point into.
-/

namespace ApiIntake.OpenApi

open ApiIntake.Yaml (Value Scalar)

/-- A thing written where it is used, or a reference to it. -/
inductive RefOr (α : Type) where
  /-- A reference. -/
  | ref (target : String)
  /-- The thing itself. -/
  | inline (a : α)

/-- Where an operation takes a parameter from. -/
inductive ParameterPlace where
  | path
  | query
  | header
  | cookie
deriving DecidableEq, Repr

/-- The text of a place. -/
def ParameterPlace.text : ParameterPlace → String
  | .path => "path"
  | .query => "query"
  | .header => "header"
  | .cookie => "cookie"

/-- What a parameter holds. -/
inductive ParameterFormat where
  /-- A value of a schema. -/
  | schema (s : Schema)
  /-- A text in one of some media types. -/
  | content

/-- A parameter of an operation. -/
structure Parameter where
  /-- The name that tells it apart among those of its place. -/
  name : String
  /-- Where it is taken from. -/
  place : ParameterPlace
  /-- Whether a call has to give it. -/
  required : Bool
  /-- The description. -/
  description : Option String
  /-- What it holds. -/
  format : ParameterFormat

/-- The body of a request. -/
structure RequestBody where
  /-- The description. -/
  description : Option String
  /-- Whether a call has to give it. -/
  required : Bool
  /-- The schema of each media type in which it may be given. -/
  content : List (String × Option Schema)

/-- What may be asked of a path by one method. -/
structure Operation where
  /-- The name that the document gives it. -/
  operationId : Option String
  /-- A short description. -/
  summary : Option String
  /-- The description. -/
  description : Option String
  /-- The parameters. -/
  parameters : List (RefOr Parameter)
  /-- The body of a request. -/
  requestBody : Option (RefOr RequestBody)

/-- A method of a request. -/
inductive Method where
  | get
  | put
  | post
  | delete
  | options
  | head
  | patch
  | trace
deriving DecidableEq, Repr

namespace Method

/-- All methods, in the order in which the operations of a path are taken. -/
def all : List Method := [.get, .put, .post, .delete, .options, .head, .patch, .trace]

/-- The method in small letters. -/
def lower : Method → String
  | .get => "get"
  | .put => "put"
  | .post => "post"
  | .delete => "delete"
  | .options => "options"
  | .head => "head"
  | .patch => "patch"
  | .trace => "trace"

/-- The method in capitals. -/
def upper : Method → String
  | .get => "GET"
  | .put => "PUT"
  | .post => "POST"
  | .delete => "DELETE"
  | .options => "OPTIONS"
  | .head => "HEAD"
  | .patch => "PATCH"
  | .trace => "TRACE"

end Method

/-- The operations on a path. -/
structure PathItem where
  /-- The operation of each method that has one. -/
  operation : Method → Option Operation
  /-- The parameters of all of them. -/
  parameters : List (RefOr Parameter)

/-- The operations that are there, in the order of the methods. -/
def PathItem.operations (item : PathItem) : List (Method × Operation) :=
  Method.all.filterMap fun m => (item.operation m).map fun op => (m, op)

/-! ## Reading -/

/-- The entries of a value, none unless it is an object. -/
def entriesOf : Value → List (Value × Value)
  | .map entries => entries
  | _ => []

/-- The field of an object with a name, unless it is null. -/
def field? (entries : List (Value × Value)) (name : String) : Option Value :=
  (SchemaForm.present entries).lookup name

/-- Whether the field with a name is `true`. -/
def flagOf (entries : List (Value × Value)) (name : String) : Bool :=
  match field? entries name with
  | some (.scalar (.bool b) _) => b
  | _ => false

/-- Reads a reference or a thing. -/
def RefOr.ofValue {α : Type} (read : Value → α) (v : Value) : RefOr α :=
  match textOf? (entriesOf v) "$ref" with
  | some target => .ref target
  | none => .inline (read v)

/-- Reads a schema or a reference to one. -/
def RefOr.ofSchema (s : Schema) : RefOr Schema :=
  match s with
  | .ref target => .ref target
  | s => .inline s

/-- Reads a parameter. -/
def Parameter.ofValue (v : Value) : Parameter :=
  let entries := entriesOf v
  let keys := entries.filterMap fun
    | (.scalar (.str k) _, _) => some k
    | _ => none
  { name := (textOf? entries "name").getD ""
    place :=
      match textOf? entries "in" with
      | some "query" => .query
      | some "header" => .header
      | some "cookie" => .cookie
      | _ => .path
    required := flagOf entries "required"
    description := textOf? entries "description"
    format :=
      match keys.find? fun k => k = "schema" || k = "content" with
      | some "schema" => .schema (Schema.ofValue ((field? entries "schema").getD (.map [])))
      | _ => .content }

/-- Reads the body of a request. -/
def RequestBody.ofValue (v : Value) : RequestBody :=
  let entries := entriesOf v
  { description := textOf? entries "description"
    required := flagOf entries "required"
    content := (((field? entries "content").map entriesOf).getD []).filterMap fun
      | (.scalar (.str mediaType) _, v) =>
        some (mediaType, (field? (entriesOf v) "schema").map Schema.ofValue)
      | _ => none }

/-- Reads a list of parameters. -/
def parametersOf (entries : List (Value × Value)) : List (RefOr Parameter) :=
  (((field? entries "parameters").map SchemaForm.items).getD []).map
    (RefOr.ofValue Parameter.ofValue)

/-- Reads an operation. -/
def Operation.ofValue (v : Value) : Operation :=
  let entries := entriesOf v
  { operationId := textOf? entries "operationId"
    summary := textOf? entries "summary"
    description := textOf? entries "description"
    parameters := parametersOf entries
    requestBody := (field? entries "requestBody").map (RefOr.ofValue RequestBody.ofValue) }

/-- Reads a path item. -/
def PathItem.ofValue (v : Value) : PathItem :=
  let entries := entriesOf v
  { operation := fun m => (field? entries m.lower).map Operation.ofValue
    parameters := parametersOf entries }

/-- A reference or a thing of a kind, where a value conforms to it. -/
def decodeRef? {α : Type} (kind : Kind) (read : Value → α) (v : Value) : Option (RefOr α) :=
  ((Shape.refOr kind).conform .strict v).map fun _ => RefOr.ofValue read v

/-- A reference or a parameter. -/
def Parameter.decode? : Value → Option (RefOr Parameter) := decodeRef? .parameter Parameter.ofValue

/-- A reference or the body of a request. -/
def RequestBody.decode? : Value → Option (RefOr RequestBody) :=
  decodeRef? .requestBody RequestBody.ofValue

/-- A reference or a schema. -/
def Schema.decode? : Value → Option (RefOr Schema) := decodeRef? .schema Schema.ofValue

/-- A reference or a path item. -/
def PathItem.decode? : Value → Option (RefOr PathItem) := decodeRef? .pathItem PathItem.ofValue

/-! ## Documents -/

/-- An API document. -/
structure Document where
  /-- The version of the format. -/
  openapi : String
  /-- The title. -/
  title : String
  /-- The version of what is described. -/
  version : String
  /-- The description. -/
  description : Option String
  /-- The address of the first server. -/
  serverUrl : Option String
  /-- The path items by path, in the order of the document. -/
  paths : List (String × RefOr PathItem)
  /-- The JSON form, ascending by key, that references point into. -/
  root : Json

/-- Reads a document, where the value conforms to the shape of one. -/
def Document.decode? (r : Reading) (v : Value) : Option Document := do
  let form ← (Shape.object .document).conform r v
  let info ← form.get? "info"
  let textIn (j : Json) (name : String) : Option String := (j.get? name).bind Json.text?
  let paths := (v.untagged.get? "paths").map Value.untagged
  some
    { openapi := (textIn form "openapi").getD ""
      title := (textIn info "title").getD ""
      version := (textIn info "version").getD ""
      description := textIn info "description"
      serverUrl :=
        match form.get? "servers" with
        | some (.arr (server :: _)) => textIn server "url"
        | _ => none
      paths := ((paths.map entriesOf).getD []).filterMap fun
        | (.scalar (.str path) _, v) =>
          if path.startsWith "/" then some (path, RefOr.ofValue PathItem.ofValue v) else none
        | _ => none
      root := form.sorted }

end ApiIntake.OpenApi
