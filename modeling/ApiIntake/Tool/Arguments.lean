import ApiIntake.Tool.Basic
import ApiIntake.Tool.SchemaText
import ApiIntake.Text.Blank

/-!
# Arguments of a tool

The arguments of the tool for an operation: its parameters, those of the path item
first, where a parameter of the operation takes the place of one of the path item
with the same name and place; then the properties of a JSON request body, or the
body as a whole if it is no object.
-/

namespace ApiIntake

open ApiIntake.OpenApi

/-- Why an operation has no arguments that a tool could take. -/
inductive ArgumentError where
  /-- A reference cannot be followed. -/
  | reference (e : RefError)
  /-- A parameter is taken from a cookie. -/
  | cookie (name : String)
  /-- Two parameters have one name. -/
  | repeated (name : String)
  /-- A property of the body has the name of a parameter. -/
  | bodyCollision (name : String)
deriving DecidableEq, Repr

/-- References that cannot be followed as errors of arguments. -/
def ArgumentError.ofRef {α : Type} (x : Except RefError α) : Except ArgumentError α :=
  x.mapError .reference

/-- Puts a parameter in the place of one with the same place and name, or behind all
others. -/
def overrideParameter (p : Parameter) : List Parameter → List Parameter
  | [] => [p]
  | q :: rest =>
    if q.place = p.place ∧ q.name = p.name then p :: rest else q :: overrideParameter p rest

/-- The parameters of a path item and of one of its operations, references
replaced. -/
def joinParameters (r : RefScope) (common own : List (RefOr Parameter)) :
    Except RefError (List Parameter) :=
  (common ++ own).foldlM
    (fun merged p => do
      let p ← r.resolve Parameter.decode? p
      .ok (overrideParameter p merged))
    []

/-- A JSON schema with a description, unless it has one. -/
def describe (description : Option String) (schema : Json) : Json :=
  match schema, description with
  | .obj members, some d =>
    if (members.lookup "description").isSome then schema
    else .obj (Json.insertMember "description" (.str d) members)
  | _, _ => schema

/-- The part of a request that a parameter goes into; a cookie is none. -/
def parameterPosition (p : Parameter) : Except ArgumentError RequestPart :=
  match p.place with
  | .path => .ok .path
  | .query => .ok .query
  | .header => .ok .header
  | .cookie => .error (.cookie p.name)

/-- The argument for a parameter.  One that is taken from the path is always
required. -/
def argumentOfParameter (r : RefScope) (p : Parameter) : Except ArgumentError Argument := do
  let position ← parameterPosition p
  let schema ←
    match p.format with
    | .schema s => ArgumentError.ofRef ((r.inline s).startingAt [])
    | .content => .ok (.obj [("type", .str "string")])
  .ok
    { name := p.name
      position
      required := p.place = .path || p.required
      description := p.description
      schema := describe p.description schema }

/-- Adds arguments behind those that are there, each under a name that is new. -/
def addArguments (clash : String → ArgumentError) :
    List Argument → List Argument → Except ArgumentError (List Argument)
  | args, [] => .ok args
  | args, a :: rest =>
    if args.any fun b => b.name = a.name then .error (clash a.name)
    else addArguments clash (args ++ [a]) rest

/-! ## Bodies -/

/-- Whether a media type is one of JSON: `application/json`, or an application type
that ends in `+json`, whatever parameters and letter case it has. -/
def isJsonType (mediaType : String) : Bool :=
  let name := String.ofList (mediaType.toList.takeWhile (· ≠ ';'))
  let essence := (Text.trim name).toLower
  essence = "application/json" || (essence.startsWith "application/" && essence.endsWith "+json")

/-- The schema of the JSON form of a body: that of `application/json` itself, else of
the first media type of JSON. -/
def jsonBodySchema? (body : RequestBody) : Option Schema :=
  match body.content.lookup "application/json" with
  | some schema => schema
  | none => (body.content.find? fun entry => isJsonType entry.1).bind (·.2)

/-- The description that a JSON schema holds. -/
def schemaDescription (schema : Json) : Option String :=
  (schema.get? "description").bind Json.text?

/-- The arguments for the properties of a body. -/
def argumentsOfProperties (r : RefScope) (bodyRequired : Bool) (required : List String) :
    List (String × Schema) → RefScope.Walk (List Argument)
  | [] => pure []
  | (name, s) :: rest => do
    let schema ← r.inline s
    let rest ← argumentsOfProperties r bodyRequired required rest
    pure
      ({ name
         position := .body
         required := bodyRequired && required.contains name
         description := schemaDescription schema
         schema } :: rest)

/-- The arguments for the body of a request: one for each property of an object, or
one for a body of any other form.  Only a required body has required arguments. -/
def argumentsOfBody (r : RefScope) (body : RequestBody) : Except RefError (List Argument) := do
  match jsonBodySchema? body with
  | none => .ok []
  | some s =>
    let resolved ← r.resolve Schema.decode? (RefOr.ofSchema s)
    let chain := match s with
      | .ref target => [target]
      | _ => []
    match resolved with
    | .object _ properties required =>
      (argumentsOfProperties r body.required required properties).startingAt chain
    | resolved =>
      let schema ← (r.inline resolved).startingAt chain
      .ok
        [{ name := "body", position := .body, required := body.required
           description := body.description, schema }]

/-! ## Operations -/

/-- The arguments of the tool for an operation of a path item. -/
def argumentsOfOperation (r : RefScope) (common : List (RefOr Parameter)) (op : Operation) :
    Except ArgumentError (List Argument) := do
  let parameters ← ArgumentError.ofRef (joinParameters r common op.parameters)
  let args ← parameters.foldlM
    (fun args p => do
      let a ← argumentOfParameter r p
      addArguments .repeated args [a])
    []
  match op.requestBody with
  | none => .ok args
  | some body =>
    let body ← ArgumentError.ofRef (r.resolve RequestBody.decode? body)
    let fromBody ← ArgumentError.ofRef (argumentsOfBody r body)
    addArguments .bodyCollision args fromBody

/-- The JSON schema of an object that holds all arguments. -/
def inputSchemaOf (args : List Argument) : Json :=
  let required := (args.filter (·.required)).map fun a => Json.str a.name
  .obj (Schema.listMember "required" required |> fun r =>
    ("properties", .obj (Json.sortMembers (args.map fun a => (a.name, a.schema)))) :: r ++
      [("type", .str "object")])

end ApiIntake
