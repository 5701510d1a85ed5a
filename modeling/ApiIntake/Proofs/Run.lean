import Mathlib.Data.List.Basic
import Mathlib.Data.List.Induction
import Mathlib.Data.List.Pairwise
import Mathlib.Tactic.Use

/-!
# Runs

A run makes one call after another on one state.  Its history lists the calls, each
with the state that it met, what it answered and the state that it left.

What every call keeps holds throughout a run (`history_keeps`), also if it speaks of the
calls so far (`run_keeps`).  What one call brings about and every call keeps holds at all
calls behind it (`pairwise_history`).
-/

namespace ApiIntake

variable {α β σ : Type}

/-! ### Stateful calls -/

/-- One call behind another begins with the answer and the state of the first. -/
theorem bind_apply {γ δ : Type} (m : StateM σ γ) (f : γ → StateM σ δ) (s : σ) :
  (m >>= f) s = f (m s).1 (m s).2
  := rfl

/-- What is given back at once leaves the state as it is. -/
theorem pure_apply (a : α) (s : σ) :
  (pure a : StateM σ α) s = (a, s)
  := rfl

/-- What is made of an answer does not change the state. -/
theorem map_apply (f : α → β) (m : StateM σ α) (s : σ) :
  (f <$> m) s = (f (m s).1, (m s).2)
  := rfl

/-- A call can look at the state. -/
theorem get_apply (s : σ) :
  (get : StateM σ σ) s = (s, s)
  := rfl

/-- A call can change the state. -/
theorem modify_apply (f : σ → σ) (s : σ) :
  (modify f : StateM σ PUnit) s = (⟨⟩, f s)
  := rfl

/-! ### Histories -/

/-- A call of a run. -/
structure Turn (α β σ : Type) where
  /-- What was asked. -/
  request : α
  /-- The state that it met. -/
  before : σ
  /-- What it answered. -/
  reply : β
  /-- The state that it left. -/
  after : σ

/-- The calls of a run that starts from a state, one for each request. -/
def history (step : α → StateM σ β) : σ → List α → List (Turn α β σ)
  | _, [] => []
  | s, a :: rest => ⟨a, s, (step a s).1, (step a s).2⟩ :: history step (step a s).2 rest

/-- A call on the states that a map gives. -/
def Turn.map {ρ : Type} (π : σ → ρ) (t : Turn α β σ) : Turn α β ρ :=
  ⟨t.request, π t.before, t.reply, π t.after⟩

variable {step : α → StateM σ β} {s : σ} {requests : List α}

/-- If calls are carried over by a map of states, histories are. -/
theorem history_map {ρ : Type} {π : σ → ρ} {step' : α → StateM ρ β}
    (carried : ∀ a s, step' a (π s) = ((step a s).1, π (step a s).2)) (s : σ)
    (requests : List α) :
  history step' (π s) requests = (history step s requests).map (Turn.map π)
  := by
  induction requests generalizing s with
  | nil => rfl
  | cons a rest ih =>
      rw [history, history, carried, ih]
      rfl

/-- Each call of a history is a step. -/
theorem step_of_mem_history {t : Turn α β σ} (ht : t ∈ history step s requests) :
  step t.request t.before = (t.reply, t.after)
  := by
  induction requests generalizing s with
  | nil => cases ht
  | cons a rest ih =>
      obtain rfl | ht := List.mem_cons.mp ht
      · rfl
      · apply ih ht

/-- What holds of the first state and is kept by every step holds at all calls. -/
theorem history_keeps {P : σ → Prop} (kept : ∀ a s, P s → P (step a s).2) (start : P s) :
  ∀ t ∈ history step s requests, P t.before ∧ P t.after
  := by
  induction requests generalizing s with
  | nil =>
      intro t ht
      cases ht
  | cons a rest ih =>
      intro t ht
      obtain rfl | ht := List.mem_cons.mp ht
      · exact ⟨start, kept a s start⟩
      · apply ih (kept a s start) t ht

/-- The state that a run leaves. -/
def reached (step : α → StateM σ β) : σ → List α → σ
  | s, [] => s
  | s, a :: rest => reached step (step a s).2 rest

/-- One request more is one call more at the end, on the state that the others left. -/
theorem history_concat (step : α → StateM σ β) (s : σ) (requests : List α) (a : α) :
  history step s (requests ++ [a]) =
    history step s requests ++
      [⟨a, reached step s requests, (step a (reached step s requests)).1,
        (step a (reached step s requests)).2⟩]
  := by
  induction requests generalizing s with
  | nil => rfl
  | cons b rest ih =>
      rw [List.cons_append, history, history, ih, reached, List.cons_append]

/-- One request more leaves what its call leaves. -/
theorem reached_concat (step : α → StateM σ β) (s : σ) (requests : List α) (a : α) :
  reached step s (requests ++ [a]) = (step a (reached step s requests)).2
  := by
  induction requests generalizing s with
  | nil => rfl
  | cons b rest ih => apply ih

/-- Requests behind others begin where those have led. -/
theorem reached_append (step : α → StateM σ β) (s : σ) (requests later : List α) :
  reached step s (requests ++ later) = reached step (reached step s requests) later
  := by
  induction requests generalizing s with
  | nil => rfl
  | cons a rest ih => apply ih

/-- In front of a call of a run stands the run of the requests before, and the call meets the
state that they leave. -/
theorem history_split {t : Turn α β σ} {before after : List (Turn α β σ)}
    (h : history step s requests = before ++ t :: after) :
  ∃ earlier, history step s earlier = before ∧ reached step s earlier = t.before ∧
    t.reply = (step t.request t.before).1
  := by
  induction before generalizing s requests with
  | nil =>
      cases requests with
      | nil => cases h
      | cons a rest =>
          obtain ⟨rfl, -⟩ := List.cons.inj h
          use [], rfl, rfl
  | cons u before ih =>
      cases requests with
      | nil => cases h
      | cons a rest =>
          obtain ⟨rfl, hrest⟩ := List.cons.inj h
          obtain ⟨earlier, rfl, hs, ht⟩ := ih hrest
          use a :: earlier, rfl, hs

/-- A run makes the calls that are asked for. -/
theorem map_request_history (step : α → StateM σ β) (s : σ) (requests : List α) :
  (history step s requests).map (·.request) = requests
  := by
  induction requests generalizing s with
  | nil => rfl
  | cons a rest ih => rw [history, List.map_cons, ih]

/-- What relates the calls so far to the state that they left, and is kept by one call more,
holds of every run. -/
theorem run_keeps {P : List (Turn α β σ) → σ → Prop} (start : P [] s)
    (kept : ∀ a ∈ requests, ∀ turns s, P turns s →
      P (turns ++ [⟨a, s, (step a s).1, (step a s).2⟩]) (step a s).2) :
  P (history step s requests) (reached step s requests)
  := by
  induction requests using List.reverseRecOn with
  | nil => apply start
  | append_singleton rest a ih =>
      rw [history_concat, reached_concat]
      apply kept
      · apply List.mem_append_right
        apply List.mem_singleton_self
      · apply ih
        intro b hb
        apply kept b (List.mem_append_left _ hb)

/-- If every call of two runs replies alike, up to a change `f` of the one replies, and leads
from related states to related ones, the runs have the same replies up to that change. -/
theorem replies_of_related {ρ γ : Type} {R : σ → ρ → Prop} {step' : α → StateM ρ γ} {f : γ → β}
    (kept : ∀ a ∈ requests, ∀ s x, R s x →
      (step a s).1 = f (step' a x).1 ∧ R (step a s).2 (step' a x).2)
    {x : ρ} (start : R s x) :
  (history step s requests).map (·.reply) = ((history step' x requests).map (·.reply)).map f
  := by
  induction requests generalizing s x with
  | nil => rfl
  | cons a rest ih =>
      obtain ⟨kept, later⟩ := List.forall_mem_cons.mp kept
      obtain ⟨hreply, hnext⟩ := kept s x start
      rw [history, history, List.map_cons, List.map_cons, List.map_cons, hreply, ih later hnext]

/-- What a call brings about and every step keeps holds at all calls behind it. -/
theorem pairwise_history {K : Turn α β σ → σ → Prop}
    (made : ∀ t, step t.request t.before = (t.reply, t.after) → K t t.after)
    (kept : ∀ t a s, K t s → K t (step a s).2) :
  (history step s requests).Pairwise fun t u => K t u.before
  := by
  induction requests generalizing s with
  | nil => apply List.Pairwise.nil
  | cons a rest ih =>
      apply List.Pairwise.cons
      · intro u hu
        apply (history_keeps (kept _) (made _ rfl) u hu).1
      · apply ih

/-- If of two calls that satisfy `p` none may stand behind the other, at most one does. -/
theorem countP_le_one {l : List α} {p : α → Bool}
    (h : l.Pairwise fun a b => p a = true → p b = false) :
  l.countP p ≤ 1
  := by
  induction h with
  | nil => simp
  | @cons a rest ha _ ih =>
      by_cases hp : p a = true
      · have hrest : rest.countP p = 0 := by
          apply List.countP_eq_zero.mpr
          intro b hb
          simp [ha b hb hp]
        simp [hp, hrest]
      · simpa [List.countP_cons, hp] using ih

end ApiIntake
