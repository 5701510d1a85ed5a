import ApiIntake.Import.Workbench

/-!
# Imports of a single process

A single process keeps its configurations in a catalog and announces them on its own
feed.
-/

namespace ApiIntake.Import

open ApiIntake.Store (StoreFailure Catalog)
open ApiIntake.Feed (AnnounceFailure Broadcast)

/-- What a single process keeps. -/
structure Local where
  /-- The configurations. -/
  catalog : Catalog
  /-- The feed. -/
  feed : Broadcast

namespace Local

/-- Nothing is kept yet; the feed has the given capacity. -/
def ofCapacity (capacity : Nat) : Local := ⟨.empty, .ofCapacity capacity⟩

/-- Stores a configuration in the catalog. -/
def create (cancelled : Bool) (c : ServerConfig) :
    StateM Local (Except StoreFailure Unit) := fun s =>
  match s.catalog.create cancelled c with
  | .ok catalog => (.ok (), { s with catalog })
  | .error e => (.error e, s)

/-- Announces a configuration on the feed. -/
def announce (cancelled : Bool) (c : ServerConfig) :
    StateM Local (Except AnnounceFailure Unit) := fun s =>
  let (result, feed) := s.feed.announce cancelled c
  (result, { s with feed })

/-- The workbench of a single process that converts in the given way.  A token says
whether the caller has given up. -/
def benchBy (convert : Destination → List UInt8 → Except ConvertError ServerConfig) :
    Workbench Bool Local where
  convert destination document := pure (convert destination document)
  create := create
  get name := fun s => (.ok (s.catalog.get? name), s)
  list := fun s => (.ok s.catalog.toList, s)
  announce := announce

/-- The workbench of a single process that converts by the given settings. -/
def bench (settings : Settings) : Workbench Bool Local := benchBy (ApiIntake.convert settings)

end Local

end ApiIntake.Import
