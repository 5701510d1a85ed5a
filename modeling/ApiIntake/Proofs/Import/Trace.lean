import ApiIntake.Import.Workbench
import ApiIntake.Proofs.Import.Course

/-!
# The dialogue of an import

A traced workbench writes down every call with all that was given and all that was
answered.  `Workbench.Dialogue` lists what an import may write: it converts once, creates
once if the conversion succeeded, and announces once if that succeeded too, each time
what the conversion gave.

Tracing changes nothing, and what it writes down for an import is one of these lists,
whatever the operations answer (`Workbench.traced_importDocument`).
-/

namespace ApiIntake.Import

open ApiIntake.Store (StoreFailure)
open ApiIntake.Feed (AnnounceFailure)

/-! ### Traces -/

/-- A call of a workbench and its answer. -/
inductive Exchange (τ : Type) where
  /-- A document was to be converted. -/
  | convert (destination : Destination) (document : List UInt8)
    (answer : Except ConvertError ServerConfig)
  /-- A configuration was to be stored. -/
  | create (token : τ) (config : ServerConfig) (answer : Except StoreFailure Unit)
  /-- A configuration was looked up. -/
  | get (name : String) (answer : Except StoreFailure (Option ServerConfig))
  /-- All configurations were listed. -/
  | list (answer : Except StoreFailure (List ServerConfig))
  /-- A configuration was to be announced. -/
  | announce (token : τ) (config : ServerConfig) (answer : Except AnnounceFailure Unit)

/-- A state whose calls are written down. -/
structure Traced (τ σ : Type) where
  /-- The calls so far. -/
  exchanges : List (Exchange τ)
  /-- The state itself. -/
  inner : σ

/-- Runs an operation and writes it down with its answer. -/
def Traced.write {τ σ α : Type} (exchange : α → Exchange τ) (m : StateM σ α) :
    StateM (Traced τ σ) α := fun x =>
  let (a, inner) := m x.inner
  (a, ⟨x.exchanges ++ [exchange a], inner⟩)

/-- An operation that is written down does what it does by itself, and its call stands
behind the others. -/
theorem Traced.of_write {τ σ α : Type} {exchange : α → Exchange τ} {m : StateM σ α}
    {x y : Traced τ σ} {a : α} (h : Traced.write exchange m x = (a, y)) :
  m x.inner = (a, y.inner) ∧ y.exchanges = x.exchanges ++ [exchange a]
  := by
  cases h
  use rfl

namespace Workbench

variable {τ σ : Type} {w : Workbench τ σ} {token : τ} {document : List UInt8}
  {destination : Destination} {c : ServerConfig} {s t : σ} {exchanges made : List (Exchange τ)}

/-- The same workbench with all its calls written down. -/
def traced (w : Workbench τ σ) : Workbench τ (Traced τ σ) where
  convert destination document :=
    Traced.write (.convert destination document) (w.convert destination document)
  create token config := Traced.write (.create token config) (w.create token config)
  get name := Traced.write (.get name) (w.get name)
  list := Traced.write .list w.list
  announce token config := Traced.write (.announce token config) (w.announce token config)

/-- What the operations of a workbench keep is kept while calls are written down. -/
theorem Keeps.traced {P : σ → Prop} {Q : ServerConfig → σ → Prop} (h : w.Keeps P Q) :
  w.traced.Keeps (fun x => P x.inner) (fun c x => Q c x.inner)
  := by
  constructor
  · intro destination document x a y hy
    apply h.convert (Traced.of_write hy).1
  · intro token c x a y hy
    apply h.create (Traced.of_write hy).1
  · intro token c x y hy
    apply h.created (Traced.of_write hy).1
  · intro name x a y hy
    apply h.get (Traced.of_write hy).1
  · intro name c x y hy
    apply h.got (Traced.of_write hy).1
  · intro token c x a y hy
    apply h.announce (Traced.of_write hy).1

/-- A conversion is written down. -/
theorem traced_convert {a : Except ConvertError ServerConfig}
    (h : w.convert destination document s = (a, t)) :
  w.traced.convert destination document ⟨exchanges, s⟩ =
    (a, ⟨exchanges ++ [.convert destination document a], t⟩)
  := by
  simp only [traced, Traced.write, h]

/-- Storing is written down. -/
theorem traced_create {a : Except StoreFailure Unit} (h : w.create token c s = (a, t)) :
  w.traced.create token c ⟨exchanges, s⟩ = (a, ⟨exchanges ++ [.create token c a], t⟩)
  := by
  simp only [traced, Traced.write, h]

/-- An announcement is written down. -/
theorem traced_announce {a : Except AnnounceFailure Unit} (h : w.announce token c s = (a, t)) :
  w.traced.announce token c ⟨exchanges, s⟩ = (a, ⟨exchanges ++ [.announce token c a], t⟩)
  := by
  simp only [traced, Traced.write, h]

/-! ### Imports -/

/-- The calls that an import makes, in their order and with their answers, and how it
ends. -/
inductive Dialogue (token : τ) (document : List UInt8) (destination : Destination) :
    List (Exchange τ) → Ending → Prop
  /-- The conversion fails, and nothing else is called. -/
  | notConverted (e : ConvertError) :
    Dialogue token document destination [.convert destination document (.error e)]
      (.notConverted e)
  /-- The store refuses what was converted, and nothing is announced. -/
  | notStored (c : ServerConfig) (e : StoreFailure) :
    Dialogue token document destination
      [.convert destination document (.ok c), .create token c (.error e)]
      (.notStored e)
  /-- What was converted and stored is not announced. -/
  | notAnnounced (c : ServerConfig) (e : AnnounceFailure) :
    Dialogue token document destination
      [.convert destination document (.ok c), .create token c (.ok ()),
        .announce token c (.error e)]
      (.notAnnounced c e)
  /-- What was converted and stored is announced. -/
  | imported (c : ServerConfig) :
    Dialogue token document destination
      [.convert destination document (.ok c), .create token c (.ok ()),
        .announce token c (.ok ())]
      (.imported c)

/-- An import writes down one of the dialogues. -/
theorem traced_importDocument (w : Workbench τ σ) (token : τ) (document : List UInt8)
    (destination : Destination) (s : σ) (exchanges : List (Exchange τ)) :
  ∃ made,
    w.traced.importDocument token document destination ⟨exchanges, s⟩ =
      ((w.importDocument token document destination s).1,
        ⟨exchanges ++ made, (w.importDocument token document destination s).2⟩) ∧
    Dialogue token document destination made (w.importDocument token document destination s).1
  := by
  cases hr : w.importDocument token document destination s with
  | mk ending t =>
      have hc := w.course_importDocument token document destination s
      rw [hr] at hc
      cases hc with
      | @notConverted e _ converted =>
          use [.convert destination document (.error e)]
          constructor
          · apply Course.eq
            apply Course.notConverted (traced_convert converted)
          · apply Dialogue.notConverted
      | @notStored c e _ _ converted created =>
          use [.convert destination document (.ok c), .create token c (.error e)]
          constructor
          · apply Course.eq
            rw [List.append_cons]
            apply Course.notStored (traced_convert converted) (traced_create created)
          · apply Dialogue.notStored
      | @notAnnounced c e _ _ _ converted created announced =>
          use [.convert destination document (.ok c), .create token c (.ok ()),
            .announce token c (.error e)]
          constructor
          · apply Course.eq
            rw [List.append_cons, List.append_cons _ (Exchange.create _ _ _)]
            apply Course.notAnnounced (traced_convert converted) (traced_create created)
              (traced_announce announced)
          · apply Dialogue.notAnnounced
      | @imported c _ _ _ converted created announced =>
          use [.convert destination document (.ok c), .create token c (.ok ()),
            .announce token c (.ok ())]
          constructor
          · apply Course.eq
            rw [List.append_cons, List.append_cons _ (Exchange.create _ _ _)]
            apply Course.imported (traced_convert converted) (traced_create created)
              (traced_announce announced)
          · apply Dialogue.imported

end Workbench

end ApiIntake.Import
