import ApiIntake.Import.Watch
import ApiIntake.Proofs.Import.Course

/-!
# Imports under watch

An operation that has to fail answers with its fault and leaves what is watched alone;
any other acts on what is watched as it would by itself (`Watched.of_guarded`).  So a
watched workbench keeps what the workbench keeps (`Workbench.Keeps.watched`), and a map of
states that carries operations over carries them over under watch
(`Workbench.Projects.watched`).
-/

namespace ApiIntake.Import

/-! ### Faults -/

namespace Watched

variable {σ ρ α ε : Type} {fault : Faults → Option ε} {m : StateM σ (Except ε α)}
  {x y : Watched σ} {a : Except ε α}

/-- The same calls and faults beside another state. -/
def carry (π : σ → ρ) (x : Watched σ) : Watched ρ := ⟨x.calls, x.faults, π x.inner⟩

/-- What an operation does hangs on whether it has to fail. -/
theorem guarded_apply :
  guarded fault m x =
    (match fault x.faults with
      | some e => (.error e, x)
      | none => ((m x.inner).1, ⟨x.calls, x.faults, (m x.inner).2⟩))
  := by
  have h : guarded fault m x =
      (match fault x.faults with
        | some e => (pure (.error e) : StateM (Watched σ) (Except ε α))
        | none => lift m) x := rfl
  rw [h]
  cases fault x.faults with
  | some e => rfl
  | none => rfl

/-- An operation either has to fail, and then nothing is done, or it is done. -/
theorem of_guarded (h : guarded fault m x = (a, y)) :
  (∃ e, fault x.faults = some e ∧ a = .error e ∧ y = x) ∨
    fault x.faults = none ∧ m x.inner = (a, y.inner) ∧ y = ⟨x.calls, x.faults, y.inner⟩
  := by
  rw [guarded_apply] at h
  cases hf : fault x.faults with
  | some e =>
      rw [hf] at h
      cases h
      left
      use e
  | none =>
      rw [hf] at h
      cases h
      right
      use rfl, rfl

/-- What an operation keeps is kept even if the operation may have to fail. -/
theorem keeps_of_guarded {P : σ → Prop} (h : guarded fault m x = (a, y))
    (kept : ∀ {a s}, m x.inner = (a, s) → P x.inner → P s) (hx : P x.inner) :
  P y.inner
  := by
  obtain ⟨-, -, -, rfl⟩ | ⟨-, hm, -⟩ := of_guarded h
  · apply hx
  · apply kept hm hx

/-- A failure leaves what is watched alone if it does so where the operation does not have to
fail. -/
theorem inner_of_failed {e : ε} (h : guarded fault m x = (.error e, y))
    (failed : ∀ {s}, m x.inner = (.error e, s) → s = x.inner) :
  y.inner = x.inner
  := by
  obtain ⟨-, -, -, rfl⟩ | ⟨-, hm, -⟩ := of_guarded h
  · rfl
  · apply failed hm

/-- What an operation does is carried over even if the operation may have to fail. -/
theorem project_of_guarded {π : σ → ρ} {n : StateM ρ (Except ε α)}
    (h : guarded fault m x = (a, y))
    (carried : ∀ {a s}, m x.inner = (a, s) → n (π x.inner) = (a, π s)) :
  guarded fault n (x.carry π) = (a, y.carry π)
  := by
  rw [guarded_apply]
  obtain ⟨e, hf, rfl, rfl⟩ | ⟨hf, hm, hy⟩ := of_guarded h
  · simp only [carry, hf]
  · rw [hy]
    simp only [carry, hf, carried hm]

end Watched

/-! ### Watched workbenches -/

namespace Workbench

variable {τ σ ρ : Type} {w : Workbench τ σ} {v : Workbench τ ρ} {π : σ → ρ}

/-- What the operations of a workbench keep is kept under watch. -/
theorem Keeps.watched {P : σ → Prop} {Q : ServerConfig → σ → Prop} (h : w.Keeps P Q)
    (isCancelled : τ → σ → Bool) :
  (w.watched isCancelled).Keeps (fun x => P x.inner) (fun c x => Q c x.inner)
  := by
  constructor
  · intro destination document x a y hy hx
    cases hy
    apply h.convert rfl hx
  · intro token c x a y hy hx
    apply Watched.keeps_of_guarded hy h.create hx
  · intro token c x y hy hx
    obtain ⟨-, -, ⟨⟩, -⟩ | ⟨-, hm, -⟩ := Watched.of_guarded hy
    apply h.created hm hx
  · intro name x a y hy hx
    apply Watched.keeps_of_guarded hy h.get hx
  · intro name c x y hy hx
    obtain ⟨-, -, ⟨⟩, -⟩ | ⟨-, hm, -⟩ := Watched.of_guarded hy
    apply h.got hm hx
  · intro token c x a y hy hx hq
    apply Watched.keeps_of_guarded hy (fun hm hs => h.announce hm hs hq) hx

/-- Operations that are carried over are carried over under watch. -/
theorem Projects.watched (h : w.Projects v π) (isCancelled : τ → ρ → Bool) :
  (w.watched fun token s => isCancelled token (π s)).Projects (v.watched isCancelled)
    (Watched.carry π)
  := by
  constructor
  · intro destination document x a y hy
    cases hy
    apply congrArg (fun r => (r.1, Watched.mk _ _ r.2)) (h.convert rfl)
  · intro token c x a y hy
    apply Watched.project_of_guarded hy h.create
  · intro name x a y hy
    apply Watched.project_of_guarded hy h.get
  · intro token c x a y hy
    apply Watched.project_of_guarded hy h.announce

end Workbench

end ApiIntake.Import
