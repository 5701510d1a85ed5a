import ApiIntake.Json.Record
import ApiIntake.Json.Printer
import ApiIntake.Digest.Sha256
import ApiIntake.Text.Utf8

/-!
# Tool servers

The configuration of a tool server: where it is mounted, which tools it offers, and
the request that each tool makes.  `ServerConfig.toJson` and `ServerConfig.ofJson?`
are its JSON form, and `ServerConfig.digest` the hash of the compact text of
that form.
-/

namespace ApiIntake

/-- The part of a request that an argument goes into. -/
inductive RequestPart where
  | path
  | query
  | header
  | body
deriving DecidableEq, Repr

/-- The text of a position. -/
def RequestPart.text : RequestPart → String
  | .path => "path"
  | .query => "query"
  | .header => "header"
  | .body => "body"

/-- An argument of a tool. -/
structure Argument where
  /-- The name. -/
  name : String
  /-- The part of the request it goes into. -/
  position : RequestPart
  /-- Whether a call has to give it. -/
  required : Bool
  /-- The description. -/
  description : Option String
  /-- The JSON schema of its values. -/
  schema : Json

/-- A tool: one operation of an API. -/
structure Tool where
  /-- The name. -/
  name : String
  /-- The description. -/
  description : Option String
  /-- The method of the request, in capitals. -/
  method : String
  /-- The path of the request. -/
  path : String
  /-- The name that the API gives the operation. -/
  operationId : Option String
  /-- The arguments. -/
  args : List Argument
  /-- The JSON schema of an object that holds all arguments. -/
  inputSchema : Json

/-- The configuration of a tool server. -/
structure ServerConfig where
  /-- The name, one for each server. -/
  name : String
  /-- Whom the server belongs to. -/
  tenant : String
  /-- The path under which it is mounted. -/
  pathPrefix : String
  /-- The address of the API. -/
  baseUrl : Option String
  /-- The tools. -/
  tools : List Tool
  /-- What is known of the API, by key. -/
  metadata : List (String × Json)

/-- A member that is left out if there is no text. -/
def textMember (key : String) (s : Option String) : List (String × Json) :=
  Json.optional key (s.map .str)

/-! ## JSON form -/

/-- The JSON form of an argument. -/
def Argument.toJson (a : Argument) : Json :=
  .obj ([("name", .str a.name), ("position", .str a.position.text),
      ("required", .bool a.required)] ++
    textMember "description" a.description ++ [("schema", a.schema)])

/-- The JSON form of a tool. -/
def Tool.toJson (t : Tool) : Json :=
  .obj ([("name", .str t.name)] ++ textMember "description" t.description ++
    [("method", .str t.method), ("path", .str t.path)] ++ textMember "operationId" t.operationId ++
    [("args", .arr (t.args.map Argument.toJson)), ("inputSchema", t.inputSchema)])

/-- The JSON form of a configuration. -/
def ServerConfig.toJson (c : ServerConfig) : Json :=
  .obj ([("name", .str c.name), ("tenant", .str c.tenant), ("prefix", .str c.pathPrefix)] ++
    textMember "baseUrl" c.baseUrl ++
    [("tools", .arr (c.tools.map Tool.toJson)), ("metadata", .obj c.metadata)])

/-- Reads a position: its text, or an object with that text as its one key and
null behind it. -/
def RequestPart.ofJson? (j : Json) : Option RequestPart :=
  let named : String → Option RequestPart := fun s =>
    [RequestPart.path, .query, .header, .body].find? fun p => p.text = s
  match j with
  | .str s => named s
  | .obj [(s, .null)] => named s
  | _ => none

/-- Reads an argument. -/
def Argument.ofJson? (j : Json) : Option Argument := do
  let fields ← j.record? ["name", "position", "required", "description", "schema"]
  some
    { name := ← Json.requiredText? fields "name"
      position := ← (fields.lookup "position").bind RequestPart.ofJson?
      required := ← Json.requiredFlag? fields "required"
      description := ← Json.optionalText? fields "description"
      schema := ← fields.lookup "schema" }

/-- Reads a tool. -/
def Tool.ofJson? (j : Json) : Option Tool := do
  let fields ←
    j.record? ["name", "description", "method", "path", "operationId", "args", "inputSchema"]
  some
    { name := ← Json.requiredText? fields "name"
      description := ← Json.optionalText? fields "description"
      method := ← Json.requiredText? fields "method"
      path := ← Json.requiredText? fields "path"
      operationId := ← Json.optionalText? fields "operationId"
      args := ← Json.listOrEmpty? Argument.ofJson? fields "args"
      inputSchema := ← fields.lookup "inputSchema" }

/-- Reads a configuration. -/
def ServerConfig.ofJson? (j : Json) : Option ServerConfig := do
  let fields ← j.record? ["name", "tenant", "prefix", "baseUrl", "tools", "metadata"]
  some
    { name := ← Json.requiredText? fields "name"
      tenant := ← Json.requiredText? fields "tenant"
      pathPrefix := ← Json.requiredText? fields "prefix"
      baseUrl := ← Json.optionalText? fields "baseUrl"
      tools := ← Json.listOrEmpty? Tool.ofJson? fields "tools"
      metadata := ← Json.tableOrEmpty? fields "metadata" }

/-! ## Content -/

/-- The hash of a text as it is written in a configuration or an update. -/
def taggedHash (bytes : List UInt8) : String := "sha256:" ++ Digest.sha256Hex bytes

namespace ServerConfig

/-- The compact text of the JSON form. -/
def contentText (c : ServerConfig) : String := c.toJson.compact

/-- The hash of the content text. -/
def digest (c : ServerConfig) : String := taggedHash (Text.utf8 c.contentText)

/-- The first tool with a name. -/
def tool? (c : ServerConfig) (name : String) : Option Tool := c.tools.find? fun t => t.name = name

end ServerConfig

end ApiIntake
