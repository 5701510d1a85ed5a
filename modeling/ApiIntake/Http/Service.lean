import ApiIntake.Http.Message
import ApiIntake.Http.MediaType
import ApiIntake.Http.Multipart
import ApiIntake.Import.Workbench

/-!
# The service

Documents are imported with a form, configurations are looked up and announced again,
and announcements are followed as an event stream.  `Service.respond` answers a request
over any workbench; a form is read to its end before anything else is done.
-/

namespace ApiIntake.Http

open ApiIntake.Import (Workbench Ending ReannounceFailure)
open ApiIntake.Store (StoreFailure)
open ApiIntake.Feed (AnnounceFailure)

/-! ## Paths -/

/-- What a path leads to. -/
inductive Route where
  | health
  | upload
  | configs
  /-- The configuration with a name, which is percent-encoded. -/
  | config (name : String)
  /-- The announcement of the configuration with a name, which is percent-encoded. -/
  | notify (name : String)
  | updates
deriving DecidableEq, Repr

namespace Route

/-- What a path leads to; a query behind it is passed over. -/
def ofPath? (path : String) : Option Route :=
  match ((path.toList.takeWhile (· ≠ '?')).splitOn '/').map String.ofList with
  | ["", "health"] => some .health
  | ["", "api", "openapi", "import"] => some .upload
  | ["", "api", "configs"] => some .configs
  | ["", "api", "configs", name] => if name.isEmpty then none else some (.config name)
  | ["", "api", "configs", name, "notify"] => some (.notify name)
  | ["", "api", "updates"] => some .updates
  | _ => none

/-- The methods that a route takes. -/
def methods : Route → List String
  | .upload | .notify _ => ["POST"]
  | _ => ["GET", "HEAD"]

/-- The name in a path, unless its bytes are no text. -/
def decodeName? (name : String) : Option String :=
  Text.ofUtf8? (Text.percentDecode (Text.utf8 name))

end Route

/-! ## Answers -/

/-- The answer of success. -/
def Response.success (status : Nat) (c : ServerConfig) : Response :=
  .ofJson status (.obj [("status", .str "success"), ("config", c.toJson)])

/-- The answer of failure.  It carries a configuration if that is stored all the same. -/
def Response.failure (status : Nat) (kind : Option String) (reason : String)
    (config : Option ServerConfig) : Response :=
  .ofJson status (.obj ([("status", .str "error")] ++ textMember "kind" kind ++
    [("reason", .str reason)] ++ Json.optional "config" (config.map ServerConfig.toJson)))

/-- The status code of how an import ended. -/
def endingStatus : Ending → Nat
  | .imported _ => 201
  | .notConverted _ => 400
  | .notStored e => if e.isNameTaken then 409 else 500
  | .notAnnounced .. => 500

/-- The answer to an import. -/
def endingAnswer (o : Ending) : Response :=
  match o, o.reason? with
  | .imported c, _ => .success (endingStatus o) c
  | _, reason => .failure (endingStatus o) (some o.label) (reason.getD "") o.stored?

/-- The status code of an error of the store. -/
def storeStatus : StoreFailure → Nat
  | .nameTaken _ => 409
  | .invalid _ => 400
  | .unavailable _ | .cancelled => 503

/-- The answer to an error of the store. -/
def storeFailure (e : StoreFailure) : Response := .failure (storeStatus e) none e.message none

/-- The status code of an error of the feed. -/
def announceStatus : AnnounceFailure → Nat
  | .unwritable _ => 500
  | .unavailable _ | .cancelled => 503

/-- The answer where a configuration is not found. -/
def configNotFound (name : String) : Response :=
  .failure 404 none (ReannounceFailure.notFound name).message none

/-- The answer to a name that is no text. -/
def badName : Response := .plain 400 "Invalid URL: Invalid UTF-8 in \x60name\x60"

/-! ## Forms -/

/-- The part for the document. -/
def documentPart : String := "file"

/-- The part for the tenant. -/
def tenantPart : String := "tenantId"

/-- The part for the path. -/
def prefixPart : String := "prefix"

/-- The data of the last part with a name. -/
def lastData? (parts : List Part) (name : String) : Option (List UInt8) :=
  (parts.reverse.find? fun p => p.name = some name).map (·.data)

/-- Where a form that is broken fails: at a part that was asked for, or between parts. -/
def brokenForm (e : FormError) : Response :=
  let atField := match e with
    | .cutOff (some name) => name = documentPart || name = tenantPart || name = prefixPart
    | _ => false
  .failure e.status none ((if atField then "Failed to read field: " else "Failed to read form: ") ++
    e.message) none

/-- The answer to a form without a usable boundary. -/
def badBoundary : Response :=
  .plain 400 "Invalid \x60boundary\x60 for \x60multipart/form-data\x60 request"

/-- The answer to a form without a document. -/
def missingFile : Response :=
  .failure 400 none "Failed to get file: missing multipart field 'file'" none

/-- The document and the destination in the form of a request, or the answer if there are
none. -/
def readForm (maxBytes : Nat) (r : Request) : Except Response (List UInt8 × Destination) :=
  match (r.contentType.bind MediaType.ofText?).bind MediaType.formBoundary? with
  | none => .error badBoundary
  | some boundary =>
    if maxBytes < r.body.length then .error (brokenForm .tooLarge)
    else
      match Multipart.readParts boundary r.body with
      | (_, some e) => .error (brokenForm e)
      | (parts, none) =>
        match lastData? parts documentPart with
        | none => .error missingFile
        | some file =>
          let text (name : String) := (lastData? parts name).map Text.ofBytesLossy
          .ok (file, Destination.ofParts (text tenantPart) (text prefixPart))

/-! ## The service -/

/-- A service over a workbench. -/
structure Service (τ σ : Type) where
  /-- What it works with. -/
  bench : Workbench τ σ
  /-- The token of a caller that has not given up. -/
  live : τ
  /-- The most bytes that a form may have. -/
  maxBytes : Nat

namespace Service

variable {τ σ : Type}

/-- Answers a request to import. -/
def importDocument (s : Service τ σ) (r : Request) : StateM σ Response :=
  match readForm s.maxBytes r with
  | .error answer => pure answer
  | .ok (document, destination) => do
    return endingAnswer (← s.bench.importDocument s.live document destination)

/-- Answers a request for all configurations. -/
def listAll (s : Service τ σ) : StateM σ Response := do
  match ← s.bench.list with
  | .ok configs => return .ofJson 200 (.arr (configs.map ServerConfig.toJson))
  | .error e => return storeFailure e

/-- Answers a request for a configuration. -/
def lookUp (s : Service τ σ) (name : String) : StateM σ Response := do
  match ← s.bench.get name with
  | .ok (some config) => return .ofJson 200 config.toJson
  | .ok none => return configNotFound name
  | .error e => return storeFailure e

/-- Answers a request to announce a configuration again. -/
def reannounceConfig (s : Service τ σ) (name : String) : StateM σ Response := do
  match ← s.bench.reannounce s.live name with
  | .ok config => return .success 200 config
  | .error (.notFound _) => return configNotFound name
  | .error (.store e) => return storeFailure e
  | .error (.announce e) => return .failure (announceStatus e) none e.message none

/-- Answers a request with one of the methods of its route. -/
def route (s : Service τ σ) (r : Request) : Route → StateM σ Response
  | .health => pure (.plain 200 "ok")
  | .upload => s.importDocument r
  | .configs => s.listAll
  | .config name =>
    match Route.decodeName? name with
    | some name => s.lookUp name
    | none => pure badName
  | .notify name =>
    match Route.decodeName? name with
    | some name => s.reannounceConfig name
    | none => pure badName
  | .updates => pure ⟨200, some "text/event-stream", [], .updates⟩

/-- Answers a request.  The answer to `HEAD` is that to `GET` without its body. -/
def respond (s : Service τ σ) (r : Request) : StateM σ Response :=
  match Route.ofPath? r.path with
  | none => pure .notFound
  | some route =>
    if !route.methods.contains r.method then pure (.methodNotAllowed route.methods)
    else do
      let answer ← s.route r route
      return if r.method = "HEAD" then answer.headOnly else answer

end Service

end ApiIntake.Http
