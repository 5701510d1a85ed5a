import ApiIntake.Proofs.Tool.Reach

/-!
# Rendering in two ways

A schema is rendered in any monad, with any meaning of the references in it.  If the steps of
two monads are related, and so are the meanings of the references, then the JSON schemas are
related (`Related.render`).
-/

namespace ApiIntake.OpenApi.Schema

/-- A relation of the steps of two monads that carries over from steps to sequences of
them. -/
structure Related {m n : Type → Type} [Monad m] [Monad n]
    (R : ∀ α : Type, m α → n α → Prop) : Prop where
  /-- Doing nothing is related to doing nothing. -/
  pure : ∀ {α : Type} (a : α), R α (pure a) (pure a)
  /-- One step behind another is related to such a sequence of related steps. -/
  bind : ∀ {α β : Type} {x : m α} {y : n α} {f : α → m β} {g : α → n β},
    R α x y → (∀ a, R β (f a) (g a)) → R β (x >>= f) (y >>= g)

section

variable {m n : Type → Type} [Monad m] [Monad n] {R : ∀ α : Type, m α → n α → Prop}
  {f : String → m Json} {g : String → n Json}

mutual

/-- Schemas are rendered to what is related, if the references in them are. -/
theorem Related.render (hR : Related R) (s : Schema)
    (h : ∀ target ∈ s.refs, R Json (f target) (g target)) :
  R Json (s.render f) (s.render g)
  := by
  match s with
  | .ref target => apply h target List.mem_cons_self
  | .string notes choices => apply hR.pure
  | .primitive notes type => apply hR.pure
  | .array notes none => apply hR.pure
  | .array notes (some items) =>
      apply hR.bind (hR.render items h)
      intro items
      apply hR.pure
  | .object notes properties required =>
      apply hR.bind (hR.renderTable properties h)
      intro properties
      apply hR.pure
  | .combined notes how parts =>
      apply hR.bind (hR.renderList parts h)
      intro parts
      apply hR.pure
  | .negated notes part =>
      apply hR.bind (hR.render part h)
      intro part
      apply hR.pure
  | .any notes => apply hR.pure

/-- Lists of schemas are rendered to what is related, if the references in them are. -/
theorem Related.renderList (hR : Related R) (parts : List Schema)
    (h : ∀ target ∈ refsList parts, R Json (f target) (g target)) :
  R (List Json) (renderList f parts) (renderList g parts)
  := by
  match parts with
  | [] => apply hR.pure
  | s :: rest =>
      obtain ⟨hs, hrest⟩ := List.forall_mem_append.mp h
      apply hR.bind (hR.render s hs)
      intro s
      apply hR.bind (hR.renderList rest hrest)
      intro rest
      apply hR.pure

/-- Tables of schemas are rendered to what is related, if the references in them are. -/
theorem Related.renderTable (hR : Related R) (parts : List (String × Schema))
    (h : ∀ target ∈ refsTable parts, R Json (f target) (g target)) :
  R (List (String × Json)) (renderTable f parts) (renderTable g parts)
  := by
  match parts with
  | [] => apply hR.pure
  | (name, s) :: rest =>
      obtain ⟨hs, hrest⟩ := List.forall_mem_append.mp h
      apply hR.bind (hR.render s hs)
      intro s
      apply hR.bind (hR.renderTable rest hrest)
      intro rest
      apply hR.pure

end

end

variable {m : Type → Type} [Monad m] [LawfulMonad m] {f : String → m Json}

/-- The schemas of a list are rendered one by one. -/
theorem renderList_eq_mapM (parts : List Schema) :
  renderList f parts = parts.mapM fun s => s.render f
  := by
  induction parts with
  | nil => rw [renderList, List.mapM_nil]
  | cons s rest ih => rw [renderList, List.mapM_cons, ih]

/-- The schemas of a table are rendered one by one. -/
theorem renderTable_eq_mapM (parts : List (String × Schema)) :
  renderTable f parts = parts.mapM fun p => (p.1, ·) <$> p.2.render f
  := by
  induction parts with
  | nil => rw [renderTable, List.mapM_nil]
  | cons p rest ih =>
      obtain ⟨name, s⟩ := p
      rw [renderTable, List.mapM_cons, ih, bind_map_left]

end ApiIntake.OpenApi.Schema
