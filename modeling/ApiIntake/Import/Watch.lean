import ApiIntake.Import.Workbench

/-!
# Watched workbenches

A watched workbench writes down every call, and its store and its feed can be told to
fail; an operation that fails so does not reach what is watched.
-/

namespace ApiIntake.Import

open ApiIntake.Store (StoreFailure)
open ApiIntake.Feed (AnnounceFailure)

/-- A call of a workbench. -/
inductive Call where
  | convert (destination : Destination)
  | create (name : String) (cancelled : Bool)
  | get (name : String)
  | list
  | announce (name : String) (cancelled : Bool)

/-- What each operation fails with, if it has to. -/
structure Faults where
  /-- At creating. -/
  create : Option StoreFailure
  /-- At looking up. -/
  get : Option StoreFailure
  /-- At listing. -/
  list : Option StoreFailure
  /-- At announcing. -/
  announce : Option AnnounceFailure

/-- Nothing fails. -/
def Faults.none : Faults := ⟨.none, .none, .none, .none⟩

/-- A state that is watched. -/
structure Watched (σ : Type) where
  /-- The calls so far. -/
  calls : List Call
  /-- What has to fail. -/
  faults : Faults
  /-- The state itself. -/
  inner : σ

namespace Watched

variable {σ α ε : Type}

/-- A state of which nothing is known yet. -/
def ofState (s : σ) : Watched σ := ⟨[], .none, s⟩

/-- Writes down a call. -/
def record (call : σ → Call) : StateM (Watched σ) Unit :=
  modify fun s => { s with calls := s.calls ++ [call s.inner] }

/-- Runs an operation on the state itself. -/
def lift (m : StateM σ α) : StateM (Watched σ) α := fun s =>
  let (a, inner) := m s.inner
  (a, { s with inner })

/-- Runs an operation unless it has to fail. -/
def guarded (fault : Faults → Option ε) (m : StateM σ (Except ε α)) :
    StateM (Watched σ) (Except ε α) := do
  match fault (← get).faults with
  | some e => return .error e
  | none => lift m

/-- The calls since they were last taken; they are taken away. -/
def takeCalls : StateM (Watched σ) (List Call) := fun s => (s.calls, { s with calls := [] })

end Watched

variable {τ σ : Type}

open Watched in
/-- A workbench that is watched, given how to tell a cancelled token. -/
def Workbench.watched (w : Workbench τ σ) (isCancelled : τ → σ → Bool) :
    Workbench τ (Watched σ) where
  convert destination document := do
    record fun _ => .convert destination
    lift (w.convert destination document)
  create token config := do
    record fun s => .create config.name (isCancelled token s)
    guarded Faults.create (w.create token config)
  get name := do
    record fun _ => .get name
    guarded Faults.get (w.get name)
  list := do
    record fun _ => .list
    guarded Faults.list w.list
  announce token config := do
    record fun s => .announce config.name (isCancelled token s)
    guarded Faults.announce (w.announce token config)

end ApiIntake.Import
