import ApiIntake.Proofs.Conversion.Rejection
import ApiIntake.Proofs.OpenApi.Resolution
import ApiIntake.Proofs.Tool.Arguments
import ApiIntake.Proofs.Tool.Ending

/-!
# Which references inlining follows

The references that inlining follows come one behind another (`RefScope.Follows`), and inlining
fails with the first of them that stands for no schema (`RefScope.inline_eq_error_iff`).  Behind
the chain that it begins with, these are all references that are reached
(`RefScope.Follows.mem_of_reaches`).
-/

namespace ApiIntake.OpenApi

/-! ### Failing to render -/

namespace Schema

section

variable {f : String → Except RefError Json}

mutual

/-- A schema is rendered unless a reference in it fails, and then the first one that fails
decides. -/
theorem render_eq_error_iff (s : Schema) (e : RefError) :
  s.render f = .error e ↔ FirstFails (fun target e => f target = .error e) s.refs e
  := by
  match s with
  | .ref target => simp [render, refs, FirstFails.cons_iff, FirstFails.nil_iff]
  | .array notes (some items) =>
      rw [render, bind_pure_eq_error_iff]
      apply render_eq_error_iff
  | .object notes properties required =>
      rw [render, bind_pure_eq_error_iff]
      apply renderTable_eq_error_iff
  | .combined notes how parts =>
      rw [render, bind_pure_eq_error_iff]
      apply renderList_eq_error_iff
  | .negated notes part =>
      rw [render, bind_pure_eq_error_iff]
      apply render_eq_error_iff
  | .string .. | .primitive .. | .array _ none | .any _ =>
      rw [render, refs, FirstFails.nil_iff, iff_false]
      rintro ⟨⟩

/-- The schemas of a list are rendered unless a reference in them fails. -/
theorem renderList_eq_error_iff (parts : List Schema) (e : RefError) :
  renderList f parts = .error e ↔
    FirstFails (fun target e => f target = .error e) (refsList parts) e
  := by
  match parts with
  | [] =>
      rw [renderList, refsList, FirstFails.nil_iff, iff_false]
      rintro ⟨⟩
  | s :: rest =>
      apply FirstFails.bind_append_iff
      · apply render_eq_error_iff
      · apply renderList_eq_error_iff

/-- The schemas of a table are rendered unless a reference in them fails. -/
theorem renderTable_eq_error_iff (parts : List (String × Schema)) (e : RefError) :
  renderTable f parts = .error e ↔
    FirstFails (fun target e => f target = .error e) (refsTable parts) e
  := by
  match parts with
  | [] =>
      rw [renderTable, refsTable, FirstFails.nil_iff, iff_false]
      rintro ⟨⟩
  | (name, s) :: rest =>
      apply FirstFails.bind_append_iff
      · apply render_eq_error_iff
      · apply renderTable_eq_error_iff

end

end

end Schema

namespace RefScope

/-! ### References one behind another -/

/-- Inlining inside a chain comes to some references and follows these and others behind them,
each where it comes to it. -/
inductive Follows (r : RefScope) : List String → List String → List String → Prop
  /-- It comes to no reference. -/
  | nil {chain : List String} :
    Follows r chain [] []
  /-- A reference on the chain is not followed again. -/
  | again {chain rest followed : List String} {target : String} (h : target ∈ chain)
    (more : Follows r chain rest followed) :
    Follows r chain (target :: rest) followed
  /-- A reference that stands for no schema leads to no others. -/
  | broken {chain rest followed : List String} {target : String} {e : RefError}
    (h : target ∉ chain) (hs : r.schemaAt target = .error e)
    (more : Follows r chain rest followed) :
    Follows r chain (target :: rest) (target :: followed)
  /-- Behind any other reference come those in the schema that it stands for. -/
  | through {chain rest inner followed : List String} {target : String} {s : Schema}
    (h : target ∉ chain) (hs : r.schemaAt target = .ok s)
    (inside : Follows r (target :: chain) s.refs inner) (more : Follows r chain rest followed) :
    Follows r chain (target :: rest) (target :: inner ++ followed)

/-- A reference inside a chain comes to any object if it is on the chain, and else to what comes
of the schema that it stands for. -/
def replaced (r : RefScope) (chain : List String) (target : String) : Except RefError Json :=
  if target ∈ chain then .ok anyObject
  else r.schemaAt target >>= fun s => (r.inline s).startingAt (target :: chain)

/-- The first of the references that are followed fails that stands for no schema. -/
def Broken (r : RefScope) (followed : List String) (e : RefError) : Prop :=
  FirstFails (fun target e => r.schemaAt target = .error e) followed e

variable {r : RefScope} {chain refs followed : List String} {target t : String} {s s' : Schema}
  {e : RefError}

/-- There are references that are followed, whatever inlining comes to. -/
theorem exists_follows (r : RefScope) (chain : List String) (s : Schema) :
  ∃ followed, r.Follows chain s.refs followed
  := by
  apply r.schema_induction (P := fun chain s => ∃ followed, r.Follows chain s.refs followed)
  intro chain s
  induction s.refs with
  | nil =>
      intro _
      use [], Follows.nil
  | cons target rest ih =>
      intro hinside
      obtain ⟨hhere, hrest⟩ := List.forall_mem_cons.mp hinside
      obtain ⟨followed, hmore⟩ := ih hrest
      by_cases hc : target ∈ chain
      · use followed, Follows.again hc hmore
      cases hs : r.schemaAt target with
      | error e => use target :: followed, Follows.broken hc hs hmore
      | ok s' =>
          obtain ⟨inner, hinner⟩ := hhere hc s' hs
          use target :: inner ++ followed, Follows.through hc hs hinner hmore

/-- A schema is inlined unless one of its references fails to be replaced. -/
theorem inline_eq_error_iff_refs :
  (r.inline s).startingAt chain = .error e ↔
    FirstFails (fun target e => r.replaced chain target = .error e) s.refs e
  := by
  rw [startingAt_inline]
  apply Schema.render_eq_error_iff

/-- Of references the first one that is followed and stands for no schema is the one that fails
to be replaced. -/
theorem Follows.broken_iff (h : r.Follows chain refs followed) :
  FirstFails (fun target e => r.replaced chain target = .error e) refs e ↔ r.Broken followed e
  := by
  induction h generalizing e with
  | nil => rw [Broken, FirstFails.nil_iff, FirstFails.nil_iff]
  | again hc _ ih =>
      rw [FirstFails.cons_iff, ih]
      simp [replaced, hc]
  | broken hc hs _ ih =>
      rw [Broken, FirstFails.cons_iff, FirstFails.cons_iff, ih]
      simp [Broken, replaced, hc, hs, bind, Except.bind]
  | @through chain _ inner _ target s hc hs _ _ ihinside ih =>
      have hreplaced (e : RefError) :
          r.replaced chain target = .error e ↔ r.Broken inner e := by
        rw [← ihinside, ← inline_eq_error_iff_refs, replaced, if_neg hc, hs]
        rfl
      rw [Broken, List.cons_append, FirstFails.cons_iff, FirstFails.cons_iff, FirstFails.append_iff,
        ih]
      simp only [hreplaced, hs]
      simp [Broken]

/-- A schema is inlined unless one of the references that are followed stands for no schema, and
then the first of these decides. -/
theorem inline_eq_error_iff (h : r.Follows chain s.refs followed) :
  (r.inline s).startingAt chain = .error e ↔ r.Broken followed e
  := by
  rw [inline_eq_error_iff_refs, h.broken_iff]

/-! ### All that is reached -/

/-- What inlining comes to is followed, if it is not on the chain. -/
theorem Follows.mem_of_mem (h : r.Follows chain refs followed) (ht : t ∈ refs) :
  t ∈ followed ++ chain
  := by
  induction h with
  | nil => cases ht
  | again hc _ ih =>
      obtain rfl | ht := List.mem_cons.mp ht
      · apply List.mem_append_right _ hc
      · apply ih ht
  | broken _ _ _ ih =>
      obtain rfl | ht := List.mem_cons.mp ht
      · apply List.mem_cons_self
      · apply List.mem_cons_of_mem _ (ih ht)
  | through _ _ _ _ _ ih =>
      obtain rfl | ht := List.mem_cons.mp ht
      · apply List.mem_cons_self
      · have hm := List.mem_append.mp (ih ht)
        simp only [List.cons_append, List.append_assoc, List.mem_cons, List.mem_append]
        tauto

/-- What comes in the schema that a followed reference stands for is followed, too, if it is not
on the chain. -/
theorem Follows.mem_of_schemaAt (h : r.Follows chain refs followed) (ht : t ∈ followed)
    (hs : r.schemaAt t = .ok s) (hu : target ∈ s.refs) :
  target ∈ followed ++ chain
  := by
  induction h with
  | nil => cases ht
  | again _ _ ih => apply ih ht
  | broken _ he _ ih =>
      obtain rfl | ht := List.mem_cons.mp ht
      · rw [hs] at he
        cases he
      · apply List.mem_cons_of_mem _ (ih ht)
  | @through chain _ inner followed next s' hc hs' hinside _ ihinside ih =>
      -- inside of the reference it is on the chain, and here it is among those that are followed
      have hinner (hm : target ∈ inner ++ next :: chain) :
          target ∈ (next :: inner ++ followed) ++ chain := by
        simp only [List.cons_append, List.append_assoc, List.mem_cons, List.mem_append] at hm ⊢
        tauto
      obtain rfl | ht := List.mem_cons.mp ht
      · rw [hs] at hs'
        cases hs'
        apply hinner (hinside.mem_of_mem hu)
      obtain ht | ht := List.mem_append.mp ht
      · apply hinner (ihinside ht)
      · have hm := List.mem_append.mp (ih ht)
        simp only [List.cons_append, List.append_assoc, List.mem_cons, List.mem_append]
        tauto

/-- What a schema reaches is among references, if what is in the schema is, and what is in the
schemas that they stand for. -/
theorem Reaches.mem {texts : List String} (h : r.Reaches s t) (hs : s.refs ⊆ texts)
    (hclosed : ∀ target ∈ texts, ∀ s', r.schemaAt target = .ok s' → s'.refs ⊆ texts) :
  t ∈ texts
  := by
  induction h with
  | here h => apply hs h
  | through h found _ ih => apply ih (hclosed _ (hs h) _ found)

/-- What a schema reaches is followed. -/
theorem Follows.mem_of_reaches (h : r.Follows [] s.refs followed) (ht : r.Reaches s t) :
  t ∈ followed
  := by
  have hmem {u : String} (hu : u ∈ followed ++ []) : u ∈ followed := by simpa using hu
  apply ht.mem
  · intro u hu
    apply hmem (h.mem_of_mem hu)
  · intro u hu s' hs' v hv
    apply hmem (h.mem_of_schemaAt hu hs' hv)

end RefScope

end ApiIntake.OpenApi
