import ApiIntake.Tool.Basic
import ApiIntake.Text.Blank

/-!
# The catalog of configurations

Configurations are kept under their names, and none is ever replaced: of several with
one name the first one stays.  `Catalog.create` refuses in a fixed order, first a
cancelled call, then a blank name, then a name that is taken.
-/

namespace ApiIntake.Store

/-- Why a store refuses. -/
inductive StoreFailure where
  /-- The name is taken. -/
  | nameTaken (name : String)
  /-- The configuration cannot be stored. -/
  | invalid (reason : String)
  /-- The store failed or could not be reached. -/
  | unavailable (reason : String)
  /-- The caller gave up. -/
  | cancelled
deriving DecidableEq, Repr

namespace StoreFailure

/-- The text of an error. -/
def message : StoreFailure → String
  | .nameTaken name => "MCP server '" ++ name ++ "' already exists"
  | .invalid reason => "invalid configuration: " ++ reason
  | .unavailable reason => "store unavailable: " ++ reason
  | .cancelled => "operation cancelled"

/-- Whether a name was taken. -/
def isNameTaken : StoreFailure → Bool
  | .nameTaken _ => true
  | _ => false

end StoreFailure

/-- Why a configuration is refused before it is stored, if it is: its name has to be
more than white space. -/
def refusal? (c : ServerConfig) : Option StoreFailure :=
  if Text.isBlank c.name then some (.invalid "name must be non-empty") else none

/-- Configurations in the order in which they were created. -/
structure Catalog where
  /-- The configurations. -/
  configs : List ServerConfig

namespace Catalog

/-- The catalog without any configuration. -/
def empty : Catalog := ⟨[]⟩

/-- The configuration with a name. -/
def get? (s : Catalog) (name : String) : Option ServerConfig :=
  s.configs.find? fun c => c.name = name

/-- The number of configurations. -/
def size (s : Catalog) : Nat := s.configs.length

/-- Whether there is no configuration. -/
def isEmpty (s : Catalog) : Bool := s.configs.isEmpty

/-- The configurations in the order of their names. -/
def toList (s : Catalog) : List ServerConfig :=
  s.configs.mergeSort fun a b => decide (a.name ≤ b.name)

/-- Creates a configuration, unless the call is cancelled. -/
def create (s : Catalog) (cancelled : Bool) (c : ServerConfig) : Except StoreFailure Catalog :=
  if cancelled then .error .cancelled
  else
    match refusal? c with
    | some e => .error e
    | none =>
      if (s.get? c.name).isSome then .error (.nameTaken c.name) else .ok ⟨s.configs ++ [c]⟩

end Catalog

end ApiIntake.Store
