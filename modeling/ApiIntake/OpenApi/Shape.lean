import ApiIntake.Yaml.Value

/-!
# The shapes of an API document

What each kind of object in a version 3 document may hold: the fields it knows, the
shape of each, and whether a field must be there, may be absent or null, or stands
for an empty value when it is absent.  The kinds refer to one another by name, so
the table is finite although documents nest without bound.
-/

namespace ApiIntake.OpenApi

open ApiIntake.Yaml (Value Scalar)

/-- A kind of object. -/
inductive Kind where
  | document
  | info
  | contact
  | license
  | server
  | serverVariable
  | tag
  | externalDocs
  | components
  | paths
  | pathItem
  | operation
  | responses
  | response
  | parameter
  | header
  | requestBody
  | mediaType
  | encoding
  | example
  | link
  | securityScheme
  | oauthFlows
  | implicitFlow
  | passwordFlow
  | clientFlow
  | codeFlow
  | schema
  | discriminator
deriving DecidableEq, Repr

/-- What a place in a document may hold. -/
inductive Shape where
  /-- Any JSON value. -/
  | anything
  | text
  | flag
  /-- Any number, held as a floating-point one. -/
  | real
  /-- A whole number that is not negative. -/
  | count
  /-- One of the given texts. -/
  | choice (texts : List String)
  | list (item : Shape)
  /-- An object with any keys. -/
  | table (item : Shape)
  | object (kind : Kind)
  /-- An object of the kind, or a reference to one. -/
  | refOr (kind : Kind)
  /-- A truth value, or a schema or a reference to one. -/
  | flagOrSchema
deriving DecidableEq, Repr

/-- What the absence of a field means. -/
inductive Presence where
  /-- The field has to be there. -/
  | required
  /-- The field may be absent, and null says the same. -/
  | optional
  /-- The field may be absent and then holds `false` or nothing; it is not written
  when it holds that. -/
  | defaulted
deriving DecidableEq, Repr

/-- A field of a kind of object. -/
structure Field where
  /-- The key. -/
  name : String
  /-- What it holds. -/
  shape : Shape
  /-- What its absence means. -/
  presence : Presence
deriving DecidableEq, Repr

/-- What the keys beyond the known fields hold; those that begin with `x-` hold any
JSON value in every kind of object. -/
inductive Others where
  /-- They are passed over. -/
  | ignored
  /-- Keys that begin with a slash hold path items or references to them. -/
  | pathItems
  /-- Status codes hold responses or references to them. -/
  | statusCodes
deriving DecidableEq, Repr

/-- A field that has to be there. -/
def must (name : String) (shape : Shape) : Field := ⟨name, shape, .required⟩

/-- A field that may be absent. -/
def may (name : String) (shape : Shape) : Field := ⟨name, shape, .optional⟩

/-- A field with an empty value to fall back on. -/
def orEmpty (name : String) (shape : Shape) : Field := ⟨name, shape, .defaulted⟩

/-- What operations may require of a caller: the names of schemes with scopes. -/
def securityShape : Shape := .list (.table (.list .text))

/-- The methods of a path item, in the order in which they are taken. -/
def methodNames : List String :=
  ["get", "put", "post", "delete", "options", "head", "patch", "trace"]

/-- The styles in which a query or an encoded part may be written. -/
def queryStyles : List String := ["form", "spaceDelimited", "pipeDelimited", "deepObject"]

/-- The fields that say what an object holds: a schema, or a table of media types.
Of the two the one that stands first counts. -/
def formatField (keys : List String) : List Field :=
  match keys.find? fun k => k = "schema" || k = "content" with
  | some "content" => [must "content" (.table (.object .mediaType))]
  | _ => [must "schema" (.refOr .schema)]

/-- The fields of a parameter besides its place. -/
def parameterFields (keys : List String) : List Field :=
  [must "name" .text, may "description" .text, orEmpty "required" .flag, may "deprecated" .flag,
   may "example" .anything, orEmpty "examples" (.table (.refOr .example)), may "explode" .flag] ++
    formatField keys

/-- The fields of an authorisation flow besides its addresses. -/
def flowFields : List Field := [may "refreshUrl" .text, orEmpty "scopes" (.table .text)]

/-- The fields of a kind of object, given its keys and the text of the field that
tells its variants apart; `none` if there is no such variant. -/
def Kind.fields? (kind : Kind) (keys : List String) (variant : String → Option String) :
    Option (List Field) :=
  match kind with
  | .document => some
      [must "openapi" .text, must "info" (.object .info),
       orEmpty "servers" (.list (.object .server)),
       must "paths" (.object .paths), may "components" (.object .components),
       may "security" securityShape, orEmpty "tags" (.list (.object .tag)),
       may "externalDocs" (.object .externalDocs)]
  | .info => some
      [must "title" .text, may "description" .text, may "termsOfService" .text,
       may "contact" (.object .contact), may "license" (.object .license), must "version" .text]
  | .contact => some [may "name" .text, may "url" .text, may "email" .text]
  | .license => some [must "name" .text, may "url" .text]
  | .server => some
      [must "url" .text, may "description" .text,
       may "variables" (.table (.object .serverVariable))]
  | .serverVariable => some
      [orEmpty "enum" (.list .text), must "default" .text, may "description" .text]
  | .tag => some
      [must "name" .text, may "description" .text, may "externalDocs" (.object .externalDocs)]
  | .externalDocs => some [may "description" .text, must "url" .text]
  | .components => some
      [orEmpty "securitySchemes" (.table (.refOr .securityScheme)),
       orEmpty "responses" (.table (.refOr .response)),
       orEmpty "parameters" (.table (.refOr .parameter)),
       orEmpty "examples" (.table (.refOr .example)),
       orEmpty "requestBodies" (.table (.refOr .requestBody)),
       orEmpty "headers" (.table (.refOr .header)), orEmpty "schemas" (.table (.refOr .schema)),
       orEmpty "links" (.table (.refOr .link)),
       orEmpty "callbacks" (.table (.table (.object .pathItem)))]
  | .paths => some []
  | .pathItem => some
      ([may "summary" .text, may "description" .text] ++
        methodNames.map (fun m => may m (.object .operation)) ++
        [orEmpty "servers" (.list (.object .server)),
         orEmpty "parameters" (.list (.refOr .parameter))])
  | .operation => some
      [orEmpty "tags" (.list .text), may "summary" .text, may "description" .text,
       may "externalDocs" (.object .externalDocs), may "operationId" .text,
       orEmpty "parameters" (.list (.refOr .parameter)), may "requestBody" (.refOr .requestBody),
       must "responses" (.object .responses),
       orEmpty "callbacks" (.table (.table (.object .pathItem))),
       orEmpty "deprecated" .flag, may "security" securityShape,
       orEmpty "servers" (.list (.object .server))]
  | .responses => some [may "default" (.refOr .response)]
  | .response => some
      [must "description" .text, orEmpty "headers" (.table (.refOr .header)),
       orEmpty "content" (.table (.object .mediaType)), orEmpty "links" (.table (.refOr .link))]
  | .parameter =>
    match variant "in" with
    | some "query" => some (must "in" .text :: parameterFields keys ++
        [orEmpty "allowReserved" .flag, orEmpty "style" (.choice queryStyles),
         may "allowEmptyValue" .flag])
    | some "header" => some (must "in" .text :: parameterFields keys ++
        [orEmpty "style" (.choice ["simple"])])
    | some "path" => some (must "in" .text :: parameterFields keys ++
        [orEmpty "style" (.choice ["matrix", "label", "simple"])])
    | some "cookie" => some (must "in" .text :: parameterFields keys ++
        [orEmpty "style" (.choice ["form"])])
    | _ => none
  | .header => some
      ([may "description" .text, orEmpty "style" (.choice ["simple"]), orEmpty "required" .flag,
        may "deprecated" .flag, may "example" .anything,
        orEmpty "examples" (.table (.refOr .example))] ++ formatField keys)
  | .requestBody => some
      [may "description" .text, orEmpty "content" (.table (.object .mediaType)),
       orEmpty "required" .flag]
  | .mediaType => some
      [may "schema" (.refOr .schema), may "example" .anything,
       orEmpty "examples" (.table (.refOr .example)),
       orEmpty "encoding" (.table (.object .encoding))]
  | .encoding => some
      [may "contentType" .text, orEmpty "headers" (.table (.refOr .header)),
       may "style" (.choice queryStyles), orEmpty "explode" .flag, orEmpty "allowReserved" .flag]
  | .example => some
      [may "summary" .text, may "description" .text, may "value" .anything,
       may "externalValue" .text]
  | .link =>
    let target := keys.find? fun k => k = "operationRef" || k = "operationId"
    target.map fun name =>
      [must name .text, may "description" .text, may "requestBody" .anything,
       orEmpty "parameters" (.table .anything), may "server" (.object .server)]
  | .securityScheme =>
    match variant "type" with
    | some "apiKey" => some
        [must "type" .text, must "in" (.choice ["query", "header", "cookie"]), must "name" .text,
         may "description" .text]
    | some "http" => some
        [must "type" .text, must "scheme" .text, may "bearerFormat" .text, may "description" .text]
    | some "oauth2" => some
        [must "type" .text, must "flows" (.object .oauthFlows), may "description" .text]
    | some "openIdConnect" => some
        [must "type" .text, must "openIdConnectUrl" .text, may "description" .text]
    | _ => none
  | .oauthFlows => some
      [may "implicit" (.object .implicitFlow), may "password" (.object .passwordFlow),
       may "clientCredentials" (.object .clientFlow), may "authorizationCode" (.object .codeFlow)]
  | .implicitFlow => some (must "authorizationUrl" .text :: flowFields)
  | .passwordFlow => some (must "tokenUrl" .text :: flowFields)
  | .clientFlow => some (must "tokenUrl" .text :: flowFields)
  | .codeFlow => some (must "authorizationUrl" .text :: must "tokenUrl" .text :: flowFields)
  | .schema => some
      [orEmpty "nullable" .flag, orEmpty "readOnly" .flag, orEmpty "writeOnly" .flag,
       orEmpty "deprecated" .flag, may "externalDocs" (.object .externalDocs),
       may "example" .anything, may "title" .text, may "description" .text,
       may "discriminator" (.object .discriminator), may "default" .anything,
       may "type" .text, may "pattern" .text, may "format" .text, may "multipleOf" .real,
       may "minimum" .real, may "maximum" .real, may "exclusiveMinimum" .flag,
       may "exclusiveMaximum" .flag, may "properties" (.table (.refOr .schema)),
       may "required" (.list .text), may "additionalProperties" .flagOrSchema,
       may "minProperties" .count, may "maxProperties" .count, may "items" (.refOr .schema),
       may "minItems" .count, may "maxItems" .count, may "uniqueItems" .flag,
       may "enum" (.list .anything), may "minLength" .count, may "maxLength" .count,
       may "oneOf" (.list (.refOr .schema)), may "allOf" (.list (.refOr .schema)),
       may "anyOf" (.list (.refOr .schema)), may "not" (.refOr .schema)]
  | .discriminator => some [must "propertyName" .text, orEmpty "mapping" (.table .text)]

/-- What the keys beyond the known fields hold. -/
def Kind.others : Kind → Others
  | .paths => .pathItems
  | .responses => .statusCodes
  | _ => .ignored

end ApiIntake.OpenApi
