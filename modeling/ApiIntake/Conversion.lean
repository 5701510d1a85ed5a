import ApiIntake.Settings
import ApiIntake.Tool.Arguments
import ApiIntake.Tool.Destination
import ApiIntake.Tool.Name

/-!
# From a document to a tool server

A document becomes the configuration of a server with one tool for each operation
that the settings select.  The conversion is a function of the bytes of the document
and the settings alone.  An operation that cannot be converted refuses the whole
document; one that is not selected is never looked at beyond its path item.
-/

namespace ApiIntake

open ApiIntake.OpenApi
open ApiIntake.Yaml (Value Scalar)

/-- What a document lacks. -/
inductive Shortcoming where
  /-- Its root is no mapping. -/
  | rootNotMapping
  /-- The version is a number, written like this. -/
  | versionIsNumber (text : String)
  /-- No version is stated. -/
  | noVersion
  /-- The title is blank. -/
  | blankTitle
  /-- It has no paths. -/
  | noPaths
  /-- No operation is selected. -/
  | nothingSelected
deriving DecidableEq, Repr

/-- Why a document is not converted. -/
inductive ConvertError where
  /-- There is nothing but ASCII white space. -/
  | emptyDocument
  /-- The text is no document of the format. -/
  | unreadable (f : Yaml.Fault)
  /-- The version is not understood. -/
  | unsupportedVersion (version : String)
  /-- Something is missing. -/
  | invalid (s : Shortcoming)
  /-- The path item of a path is a reference that cannot be followed. -/
  | pathItem (path : String) (e : RefError)
  /-- An operation has no arguments that a tool could take. -/
  | operation (label : String) (e : ArgumentError)
deriving DecidableEq, Repr

/-- The classes of errors that callers tell apart. -/
inductive ErrorClass where
  | emptyDocument
  | parse
  | unsupportedVersion
  | validation
  | unsupported
  | reference
  | parameterCollision
deriving DecidableEq, Repr

/-! ## Error texts -/

/-- The text of a shortcoming. -/
def Shortcoming.message : Shortcoming → String
  | .rootNotMapping => "document root must be a mapping"
  | .versionIsNumber n =>
    "'openapi' version must be a string, got number " ++ n ++ " (write openapi: \"" ++ n ++ "\")"
  | .noVersion => "missing 'openapi' version field"
  | .blankTitle => "info.title must be non-empty"
  | .noPaths => "document defines no paths"
  | .nothingSelected => "no operations selected for conversion"

/-- Why a reference that does not point into its document is not followed. -/
def externalMessage : String :=
  "external $ref (only '#/...' refs within the document are supported)"

/-- The text of a construct that is not supported. -/
def unsupportedText (location message : String) : String :=
  "OpenAPI error: unsupported construct in " ++ location ++ ": " ++ message

/-- What is wrong with a reference that points into its document. -/
def RefError.reason (e : RefError) : String :=
  match e.fault with
  | .external => externalMessage
  | .notPointer =>
    "Unsupported $ref fragment (expected JSON pointer starting with '/'): " ++ e.target
  | .dangling => "Unresolved $ref '" ++ e.target ++ "'"
  | .wrongKind =>
    "Failed to deserialize referenced value '" ++ e.target ++ "' as expected type: invalid type"
  | .cyclic => "Cyclic $ref detected while resolving: " ++ e.target

/-- The text of a reference error, found at `context` if that is not empty. -/
def RefError.messageAt (context : String) (e : RefError) : String :=
  match e.fault with
  | .external => unsupportedText (context ++ e.target) externalMessage
  | _ => "OpenAPI error: " ++ context ++ RefError.reason e

/-- The class of a reference error. -/
def RefError.errorClass (e : RefError) : ErrorClass :=
  match e.fault with
  | .external => .unsupported
  | _ => .reference

namespace ConvertError

/-- The class of an error. -/
def errorClass : ConvertError → ErrorClass
  | .emptyDocument => .emptyDocument
  | .unreadable _ => .parse
  | .unsupportedVersion _ => .unsupportedVersion
  | .invalid _ => .validation
  | .pathItem .. => .reference
  | .operation _ e =>
    match e with
    | .reference e => RefError.errorClass e
    | .cookie _ => .unsupported
    | .repeated _ | .bodyCollision _ => .parameterCollision

/-- The text of an error. -/
def message : ConvertError → String
  | .emptyDocument => "OpenAPI error: document is empty"
  | .unreadable f => "OpenAPI error: failed to parse OpenAPI document: " ++ f.message
  | .unsupportedVersion v =>
    "OpenAPI error: unsupported OpenAPI version '" ++ v ++ "' (expected 3.x)"
  | .invalid s => "OpenAPI error: validation failed: " ++ s.message
  | .pathItem path e => "OpenAPI error: path '" ++ path ++ "': " ++ RefError.messageAt "" e
  | .operation label e =>
    match e with
    | .reference e => RefError.messageAt (label ++ ": ") e
    | .cookie name =>
      unsupportedText (label ++ " parameter '" ++ name ++ "'") "cookie parameters are not supported"
    | .repeated name =>
      "Parameter collision: Parameter '" ++ name ++ "' appears multiple times in " ++ label
    | .bodyCollision name =>
      "Parameter collision: Body parameter '" ++ name ++
        "' collides with path/query/header parameter in " ++ label

end ConvertError

/-! ## Reading the document -/

/-- Whether a byte is ASCII white space: space, tab, line feed, form feed or carriage
return. -/
def isAsciiBlank (b : UInt8) : Bool := b = 32 || b = 9 || b = 10 || b = 12 || b = 13

/-- A number as it is shown in an error text. -/
def numberText? : Scalar → Option String
  | .int n => some (toString n)
  | .float x => some (String.ofList (x.text ⟨false⟩))
  | .infinity false => some ".inf"
  | .infinity true => some "-.inf"
  | .nan => some ".nan"
  | _ => none

/-- Checks the version that a document states. -/
def checkVersion (root : Value) : Except ConvertError Unit :=
  match root.get? "openapi", root.get? "swagger" with
  | some (.scalar (.str v) _), _ =>
    if v.startsWith "3." then .ok () else .error (.unsupportedVersion v)
  | some (.scalar s _), _ =>
    match numberText? s with
    | some n => .error (.invalid (.versionIsNumber n))
    | none => .error (.invalid .noVersion)
  | some _, _ => .error (.invalid .noVersion)
  | none, some v =>
    match v.untagged with
    | .scalar (.str v) _ => .error (.unsupportedVersion v)
    | _ => .error (.unsupportedVersion "2.0")
  | none, none => .error (.invalid .noVersion)

/-- The document that bytes hold. -/
def readDocument (bytes : List UInt8) : Except ConvertError Document := do
  if bytes.all isAsciiBlank then .error .emptyDocument
  else
    let text ←
      match Text.ofUtf8? bytes with
      | some s => .ok s.toList
      | none => .error (.unreadable .forbiddenCharacter)
    let root ←
      match Value.ofText text with
      | .ok v => v.check.mapError .unreadable |>.map fun _ => v
      | .error f => .error (.unreadable f)
    match root with
    | .map _ =>
      checkVersion root
      match Document.decode? .settled root with
      | some d => .ok d
      | none => .error (.unreadable .badForm)
    | _ => .error (.invalid .rootNotMapping)

/-! ## Tools -/

/-- The text that names an operation in errors and patterns. -/
def operationLabel (method : Method) (path : String) : String := method.upper ++ " " ++ path

/-- The name of an operation before it is made new among the others. -/
def baseName (method : Method) (path : String) (op : Operation) : String :=
  op.operationId.getD (nameFromPath method path)

/-- What an operation says of itself: its summary, its description, or that it calls
its path. -/
def toolDescription (method : Method) (path : String) (op : Operation) : String :=
  (op.summary.or op.description).getD ("Calls " ++ operationLabel method path)

/-- The tool for an operation, under a name that is not taken. -/
def toolOf (r : RefScope) (taken : List String) (path : String) (common : List (RefOr Parameter))
    (method : Method) (op : Operation) : Except ConvertError Tool := do
  let name := freeName taken (baseName method path op)
  let args ←
    (argumentsOfOperation r common op).mapError (.operation (operationLabel method path))
  .ok
    { name
      description := some (toolDescription method path op)
      method := method.upper
      path
      operationId := op.operationId
      args
      inputSchema := inputSchemaOf args }

/-- The operations of a path item that are selected. -/
def selectedOperations (d : Discovery) (path : String) (item : PathItem) :
    List (Method × Operation) :=
  item.operations.filter fun (m, _) => d.selects m path

/-- Adds the tools for operations of a path item behind the tools that are there. -/
def addTools (r : RefScope) (path : String) (common : List (RefOr Parameter)) :
    List Tool → List (Method × Operation) → Except ConvertError (List Tool)
  | tools, [] => .ok tools
  | tools, (method, op) :: rest => do
    let tool ← toolOf r (tools.map (·.name)) path common method op
    addTools r path common (tools ++ [tool]) rest

/-- The tools for the selected operations of paths, behind the tools that are
there. -/
def toolsOfPaths (r : RefScope) (d : Discovery) :
    List Tool → List (String × RefOr PathItem) → Except ConvertError (List Tool)
  | tools, [] => .ok tools
  | tools, (path, item) :: rest => do
    let item ← (r.resolve PathItem.decode? item).mapError (.pathItem path)
    let tools ← addTools r path item.parameters tools (selectedOperations d path item)
    toolsOfPaths r d tools rest

/-! ## The conversion -/

/-- What is known of the API that a document describes. -/
def metadataOf (d : Document) (hash : String) : List (String × Json) :=
  Json.sortMembers
    ([("title", .str d.title), ("version", .str d.version), ("openapi", .str d.openapi)] ++
      textMember "description" d.description ++ [("specHash", .str ("sha256:" ++ hash))])

/-- The configuration of the server for a document. -/
def convertDocument (s : Settings) (destination : Destination) (d : Document) (hash : String) :
    Except ConvertError ServerConfig := do
  let title := Text.trim d.title
  if title.isEmpty then .error (.invalid .blankTitle)
  else if d.paths.isEmpty then .error (.invalid .noPaths)
  else
    let name := nameFromTitle title hash
    let tools ← toolsOfPaths ⟨d.root⟩ s.discovery [] d.paths
    if tools.isEmpty then .error (.invalid .nothingSelected)
    else
      let (tenant, pathPrefix) := destination.resolve s.defaultTenant ("/" ++ name)
      .ok
        { name, tenant, pathPrefix
          baseUrl := d.serverUrl
          tools
          metadata := metadataOf d hash }

/-- The configuration of the server for the document that bytes hold. -/
def convert (s : Settings) (destination : Destination) (bytes : List UInt8) :
    Except ConvertError ServerConfig := do
  let d ← readDocument bytes
  convertDocument s destination d (Digest.sha256Hex bytes)

/-- Bytes that hold no document are refused for that. -/
theorem convert_of_error {s : Settings} {destination : Destination} {bytes : List UInt8}
    {e : ConvertError} (h : readDocument bytes = .error e) :
  convert s destination bytes = .error e
  := by
  simp only [convert, h, bind, Except.bind]

/-- What is made of bytes that hold a document is what is made of the document. -/
theorem convert_of_ok {s : Settings} {destination : Destination} {bytes : List UInt8}
    {d : Document} (h : readDocument bytes = .ok d) :
  convert s destination bytes = convertDocument s destination d (Digest.sha256Hex bytes)
  := by
  simp only [convert, h, bind, Except.bind]

end ApiIntake
