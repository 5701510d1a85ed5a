import ApiIntake.Database.Node
import ApiIntake.Json.Parser
import ApiIntake.Store.Catalog

/-!
# Configurations in the database

A configuration is stored as a row of its own: the JSON form with the name, the tenant
and the path beside it.  The row is inserted in a transaction, and the key of the table
makes sure that no configuration is replaced.
-/

namespace ApiIntake.Database

open ApiIntake.Store (StoreFailure refusal?)

/-- The error of a store that stands for an error of the database, at a configuration
with the given name. -/
def storeFailureOf (name : String) : AccessError → StoreFailure
  | .database e =>
    if e.isUniqueViolation then .nameTaken name
    else if e.isCheckViolation then .invalid e.message
    else .unavailable (AccessError.database e).text
  | .closed => .unavailable AccessError.closed.text

/-- The row of a configuration. -/
def ConfigRow.ofConfig (c : ServerConfig) : ConfigRow := ⟨c.name, c.tenant, c.pathPrefix, c.toJson⟩

/-- The configuration of a row.  The JSON of the row is read as a text, so nothing is read
that nests too deeply for one. -/
def ConfigRow.toConfig? (row : ConfigRow) : Option ServerConfig :=
  if row.config.depth ≤ Json.depthLimit then ServerConfig.ofJson? row.config else none

/-- What is said of a column that holds no configuration. -/
def undecodable : String := "error occurred while decoding column \"config\""

namespace Node

/-- Commits the row of a configuration. -/
def commitRow (t : Token) (c : ServerConfig) (session : Session) :
    StateM Node (Except StoreFailure Unit) := do
  let (reply, _) ← send t session .commit
  release .outside
  match reply with
  | .failed e => return .error (storeFailureOf c.name (.database e))
  | _ => return .ok ()

/-- Inserts the row of a configuration in a transaction and commits it. -/
def insertRow (t : Token) (c : ServerConfig) (session : Session) :
    StateM Node (Except StoreFailure Unit) := do
  match ← send t session (.insertConfig (.ofConfig c)) with
  | (.abandoned, _) =>
    release .outside
    return .error .cancelled
  | (.failed e, _) =>
    release .outside
    return .error (storeFailureOf c.name (.database e))
  | (.answered _, session) => commitRow t c session

/-- Stores a configuration in a transaction that is begun in a session of the pool. -/
def storeIn (t : Token) (c : ServerConfig) (p : Pooled) :
    StateM Node (Except StoreFailure Unit) := do
  match ← send t p.session .begin with
  | (.abandoned, session) =>
    release session.pooled
    return .error .cancelled
  | (.failed e, session) =>
    release session.pooled
    return .error (storeFailureOf c.name (.database e))
  | (.answered _, session) => insertRow t c session

/-- Stores a configuration. -/
def create (t : Token) (c : ServerConfig) : StateM Node (Except StoreFailure Unit) := do
  if isCancelled t (← get) then return .error .cancelled
  match refusal? c with
  | some e => return .error e
  | none =>
    match ← acquire with
    | .error e => return .error (storeFailureOf c.name e)
    | .ok p => storeIn t c p

/-- The configuration with a name. -/
def lookUp (name : String) : StateM Node (Except StoreFailure (Option ServerConfig)) := do
  match ← query (.selectConfig name) with
  | .error e => return .error (storeFailureOf name e)
  | .ok (.config (some row)) =>
    match row.toConfig? with
    | some c => return .ok (some c)
    | none => return .error (.unavailable ("decode config '" ++ name ++ "': " ++ undecodable))
  | .ok _ => return .ok none

/-- All configurations in the order of their names.  A row that holds none is passed
over. -/
def listAll : StateM Node (Except StoreFailure (List ServerConfig)) := do
  match ← query .selectConfigs with
  | .error e => return .error (.unavailable e.text)
  | .ok (.configs rows) => return .ok (rows.filterMap ConfigRow.toConfig?)
  | .ok _ => return .ok []

end Node

end ApiIntake.Database
