import Mathlib.Data.List.Forall2
import Mathlib.Tactic.Use

/-!
# Outcomes

What is known of the steps of a computation that may fail, where the whole of it has
succeeded, and of the things from which and to which the steps of a list of them lead.
-/

namespace ApiIntake

variable {α β ε ε' : Type} {x : Except ε α} {a : α} {b : β}

/-- One step behind another succeeds if the first one does and the second one does with what
the first one gave. -/
theorem bind_eq_ok_iff {f : α → Except ε β} :
  (x >>= f) = .ok b ↔ ∃ a, x = .ok a ∧ f a = .ok b
  := by
  cases x with
  | error e =>
      constructor
      · rintro ⟨⟩
      · rintro ⟨a, ⟨⟩, -⟩
  | ok a =>
      constructor
      · intro h
        use a, rfl, h
      · rintro ⟨a, ⟨⟩, h⟩
        apply h

/-- What is made of a success is made of what succeeded. -/
theorem map_eq_ok_iff {f : α → β} :
  x.map f = .ok b ↔ ∃ a, x = .ok a ∧ f a = b
  := by
  cases x with
  | error e =>
      constructor
      · rintro ⟨⟩
      · rintro ⟨a, ⟨⟩, -⟩
  | ok a =>
      constructor
      · rintro ⟨⟩
        use a
      · rintro ⟨a, ⟨⟩, rfl⟩
        rfl

/-- What is made of a failure is the failure. -/
theorem map_eq_error_iff {f : α → β} {e : ε} :
  x.map f = .error e ↔ x = .error e
  := by
  cases x with
  | error e' => simp [Except.map]
  | ok a => simp [Except.map]

/-- Other errors make no other success. -/
theorem mapError_eq_ok_iff {f : ε → ε'} :
  x.mapError f = .ok a ↔ x = .ok a
  := by
  cases x with
  | error e =>
      constructor
      · rintro ⟨⟩
      · rintro ⟨⟩
  | ok a =>
      constructor
      · rintro ⟨⟩
        rfl
      · rintro ⟨⟩
        rfl

/-- One step behind another fails as the first one does, or else as the second one does with what
the first one gave. -/
theorem bind_eq_error_iff {f : α → Except ε β} {e : ε} :
  (x >>= f) = .error e ↔ x = .error e ∨ ∃ a, x = .ok a ∧ f a = .error e
  := by
  cases x with
  | error e' => simp [bind, Except.bind]
  | ok a => simp [bind, Except.bind]

/-- What is passed on fails as it did before. -/
theorem bind_pure_eq_error_iff {f : α → β} {e : ε} :
  (x >>= fun a => pure (f a)) = .error e ↔ x = .error e
  := by
  cases x with
  | error e' => simp [bind, Except.bind]
  | ok a => simp [bind, Except.bind, pure, Except.pure]

/-- What does not fail succeeds. -/
theorem exists_eq_ok_iff :
  (∃ a, x = .ok a) ↔ ∀ e, x ≠ .error e
  := by
  cases x with
  | error e => simp
  | ok a => simp

/-- A list of computations succeeds if each of them does. -/
theorem mapM_eq_ok_iff {f : α → Except ε β} {l : List α} {bs : List β} :
  l.mapM f = .ok bs ↔ List.Forall₂ (fun a b => f a = .ok b) l bs
  := by
  induction l generalizing bs with
  | nil =>
      rw [List.mapM_nil, List.forall₂_nil_left_iff]
      constructor
      · rintro ⟨⟩
        rfl
      · rintro rfl
        rfl
  | cons a l ih =>
      rw [List.mapM_cons, bind_eq_ok_iff, List.forall₂_cons_left_iff]
      constructor
      · rintro ⟨b, hb, h⟩
        obtain ⟨rest, hrest, h⟩ := bind_eq_ok_iff.mp h
        cases h
        exact ⟨b, rest, hb, ih.mp hrest, rfl⟩
      · rintro ⟨b, rest, hb, hrest, rfl⟩
        use b, hb
        rw [ih.mpr hrest]
        rfl

/-- What stands on the right of things that are related one by one is related to something on
the left. -/
theorem exists_left_of_mem {R : α → β → Prop} {l : List α} {l' : List β}
    (h : List.Forall₂ R l l') (hb : b ∈ l') :
  ∃ a ∈ l, R a b
  := by
  induction h with
  | nil => cases hb
  | @cons a _ _ _ hab _ ih =>
      obtain rfl | hb := List.mem_cons.mp hb
      · use a, List.mem_cons_self
      · obtain ⟨a', ha', hab'⟩ := ih hb
        use a', List.mem_cons_of_mem a ha'

/-- What stands on the left of things that are related one by one is related to something on the
right. -/
theorem exists_right_of_mem {R : α → β → Prop} {l : List α} {l' : List β}
    (h : List.Forall₂ R l l') (ha : a ∈ l) :
  ∃ b ∈ l', R a b
  := by
  apply exists_left_of_mem h.flip ha

end ApiIntake
