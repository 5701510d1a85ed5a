import ApiIntake.Import.Ending

/-!
# The import workflow

An import converts a document, stores the configuration and announces it; it stops at
the first step that fails and takes nothing back.  `reannounce` announces a stored
configuration once more and never touches the store.

The steps are those of a `Workbench`, whose operations act on a state of any kind, so
that the workflow can be run over a catalog, over a database or over anything else.
-/

namespace ApiIntake.Import

open ApiIntake.Store (StoreFailure)
open ApiIntake.Feed (AnnounceFailure)

/-- What an import works with.  A token of type `τ` says whether the caller has given
up, and the operations act on a state of type `σ`. -/
structure Workbench (τ σ : Type) where
  /-- Converts a document. -/
  convert : Destination → List UInt8 → StateM σ (Except ConvertError ServerConfig)
  /-- Stores a configuration under its name. -/
  create : τ → ServerConfig → StateM σ (Except StoreFailure Unit)
  /-- The configuration with a name. -/
  get : String → StateM σ (Except StoreFailure (Option ServerConfig))
  /-- All configurations in the order of their names. -/
  list : StateM σ (Except StoreFailure (List ServerConfig))
  /-- Announces a configuration. -/
  announce : τ → ServerConfig → StateM σ (Except AnnounceFailure Unit)

namespace Workbench

variable {τ σ : Type}

/-- Runs an import. -/
def importDocument (w : Workbench τ σ) (token : τ) (document : List UInt8)
    (destination : Destination) : StateM σ Ending := do
  match ← w.convert destination document with
  | .error e => return .notConverted e
  | .ok config =>
    match ← w.create token config with
    | .error e => return .notStored e
    | .ok () =>
      match ← w.announce token config with
      | .error e => return .notAnnounced config e
      | .ok () => return .imported config

/-- Announces a stored configuration once more. -/
def reannounce (w : Workbench τ σ) (token : τ) (name : String) :
    StateM σ (Except ReannounceFailure ServerConfig) := do
  match ← w.get name with
  | .error e => return .error (.store e)
  | .ok none => return .error (.notFound name)
  | .ok (some config) =>
    match ← w.announce token config with
    | .error e => return .error (.announce e)
    | .ok () => return .ok config

end Workbench

end ApiIntake.Import
