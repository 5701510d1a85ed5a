import ApiIntake.Conversion
import ApiIntake.Store.Catalog
import ApiIntake.Feed.Broadcast

/-!
# How an import ends

An import ends in one of four ways: at the conversion, at the store, at the
announcement, or with success.  The last two leave a stored configuration behind, which
`Ending.stored?` gives.
-/

namespace ApiIntake.Import

open ApiIntake.Store (StoreFailure)
open ApiIntake.Feed (AnnounceFailure)

/-- How an import ended. -/
inductive Ending where
  /-- The configuration is stored and announced. -/
  | imported (config : ServerConfig)
  /-- The document cannot be converted. -/
  | notConverted (cause : ConvertError)
  /-- The configuration was not stored. -/
  | notStored (cause : StoreFailure)
  /-- The configuration is stored but was not announced. -/
  | notAnnounced (config : ServerConfig) (cause : AnnounceFailure)

namespace Ending

/-- The configuration that the import left in the store. -/
def stored? : Ending → Option ServerConfig
  | .imported c => some c
  | .notAnnounced c _ => some c
  | _ => none

/-- The name of the way in which the import ended. -/
def label : Ending → String
  | .imported _ => "imported"
  | .notConverted _ => "rejected"
  | .notStored _ => "persistence_failed"
  | .notAnnounced .. => "notification_failed"

/-- Whether the import succeeded. -/
def succeeded : Ending → Bool
  | .imported _ => true
  | _ => false

/-- Whether the import failed because the name is taken, if it failed at the store. -/
def conflict? : Ending → Option Bool
  | .notStored e => some e.isNameTaken
  | _ => none

/-- Why the import failed. -/
def reason? : Ending → Option String
  | .imported _ => none
  | .notConverted e => some ("Failed to convert OpenAPI specification: " ++ e.message)
  | .notStored e => some ("Failed to create MCP server: " ++ e.message)
  | .notAnnounced _ e => some ("Failed to notify gateway: " ++ e.message)

end Ending

/-- Why a configuration is not announced again. -/
inductive ReannounceFailure where
  /-- There is no configuration with the name. -/
  | notFound (name : String)
  /-- The store failed. -/
  | store (cause : StoreFailure)
  /-- The announcement failed. -/
  | announce (cause : AnnounceFailure)
deriving DecidableEq, Repr

/-- The text of an error. -/
def ReannounceFailure.message : ReannounceFailure → String
  | .notFound name => "MCP server '" ++ name ++ "' not found"
  | .store e => e.message
  | .announce e => e.message

end ApiIntake.Import
