import ApiIntake.Proofs.Tool.Render
import Mathlib.Data.List.Basic
import Mathlib.Tactic.Choose

/-!
# Inlining is plain replacing

`RefScope.plain` puts the schema that a reference stands for in the place of the reference,
again and again, and comes to no end on a schema that reaches itself.  Inlining carries a
chain of references along in order to end on any schema.  Where no reference is reached
again, the chain makes no difference (`RefScope.inline_eq_plain`).
-/

namespace ApiIntake.OpenApi

/-! ### Walks that keep their chain -/

namespace RefScope

namespace Walk

variable {α β : Type} {chain : List String} {target : String} {w : Walk α} {x : Except RefError α}

/-- A walk that begins inside the references of a chain has an outcome and leaves the chain
as it was. -/
def Gives (chain : List String) (w : Walk α) (x : Except RefError α) : Prop :=
  w.run.run chain = (x, chain)

/-- What comes of a walk is its outcome. -/
theorem Gives.startingAt_eq (h : Gives chain w x) :
  w.startingAt chain = x
  := by
  rw [startingAt, h]

/-- A walk that does nothing gives its result. -/
theorem gives_pure (a : α) :
  Gives chain (pure a) (pure a)
  := by
  rfl

/-- A walk that takes the outcome of something else gives it. -/
theorem gives_ofExcept (x : Except RefError α) :
  Gives chain (MonadExcept.ofExcept x) x
  := by
  cases x with
  | error e => rfl
  | ok a => rfl

/-- Walks behind one another give what their outcomes give. -/
theorem Gives.bind {f : α → Walk β} {g : α → Except RefError β} (h : Gives chain w x)
    (hf : ∀ a, Gives chain (f a) (g a)) :
  Gives chain (w >>= f) (x >>= g)
  := by
  rw [Gives, ExceptT.run_bind, StateT.run_bind, h]
  cases x with
  | error e => rfl
  | ok a => apply hf

/-- A walk that looks at the chain sees the one that it begins with. -/
theorem gives_get {f : List String → Walk α} (h : Gives chain (f chain) x) :
  Gives chain (get >>= f) x
  := by
  apply h

/-- A walk inside one more reference gives what it gives, and the reference is off the chain
in the end. -/
theorem Gives.inside (h : Gives (target :: chain) w x) :
  Gives chain (Walk.inside target w) x
  := by
  rw [Gives, Walk.inside, ExceptT.run_mk, StateT.run_bind]
  change StateT.run (w.run >>= fun result => do modify List.tail; return result) (target :: chain)
    = (x, chain)
  rw [StateT.run_bind, h]
  rfl

/-- What walks give carries over to sequences of them. -/
theorem related_gives (chain : List String) :
  Schema.Related fun α => Gives (α := α) chain
  := by
  constructor
  · intro α a
    apply gives_pure
  · intro α β w x f g h hf
    apply h.bind hf

end Walk

/-! ### Expanding references -/

variable {r : RefScope} {links : Nat} {chain : List String} {target : String} {s : Schema}
  {g : String → Except RefError Json}

/-- A reference on the chain is any object. -/
theorem gives_expand_of_mem (h : target ∈ chain) :
  (r.expand links target).Gives chain (.ok anyObject)
  := by
  rw [expand.eq_def]
  apply Walk.gives_get
  rw [if_pos (List.contains_iff_mem.mpr h)]
  apply Walk.gives_pure

/-- Where no more references are replaced, one that is not on the chain is an error. -/
theorem gives_expand_zero (h : target ∉ chain) :
  (r.expand 0 target).Gives chain (.error ⟨.cyclic, target⟩)
  := by
  rw [expand]
  apply Walk.gives_get
  rw [if_neg (mt List.contains_iff_mem.mp h)]
  rfl

/-- A reference that is not on the chain gives what its schema gives, inside of which it is
on the chain. -/
theorem gives_expand_succ (h : target ∉ chain)
    (hg : ∀ t, (r.expand links t).Gives (target :: chain) (g t)) :
  (r.expand (links + 1) target).Gives chain (r.schemaAt target >>= fun s => s.render g)
  := by
  rw [expand]
  apply Walk.gives_get
  rw [if_neg (mt List.contains_iff_mem.mp h)]
  apply (Walk.gives_ofExcept _).bind
  intro s
  apply Walk.Gives.inside
  apply (Walk.related_gives _).render s fun t _ => hg t

/-- A reference leaves every chain as it was. -/
theorem exists_gives_expand (links : Nat) (target : String) (chain : List String) :
  ∃ x, (r.expand links target).Gives chain x
  := by
  induction links generalizing target chain with
  | zero =>
      by_cases h : target ∈ chain
      · use .ok anyObject
        apply gives_expand_of_mem h
      · use .error ⟨.cyclic, target⟩
        apply gives_expand_zero h
  | succ links ih =>
      by_cases h : target ∈ chain
      · use .ok anyObject
        apply gives_expand_of_mem h
      · choose g hg using fun t => ih t (target :: chain)
        use r.schemaAt target >>= fun s => s.render g
        apply gives_expand_succ h hg

/-- A reference gives what comes of it, and leaves the chain as it was. -/
theorem gives_expand (links : Nat) (target : String) (chain : List String) :
  (r.expand links target).Gives chain ((r.expand links target).startingAt chain)
  := by
  obtain ⟨x, hx⟩ := r.exists_gives_expand links target chain
  rw [hx.startingAt_eq]
  apply hx

/-- A schema gives what comes of its references one by one, and leaves the chain as it
was. -/
theorem gives_render_expand (links : Nat) (s : Schema) (chain : List String) :
  (s.render (r.expand links)).Gives chain
    (s.render fun target => (r.expand links target).startingAt chain)
  := by
  apply (Walk.related_gives chain).render
  intro target _
  apply gives_expand

/-- Of a schema that is inlined comes one thing, and the chain is left as it was. -/
theorem gives_inline (s : Schema) (chain : List String) :
  (r.inline s).Gives chain ((r.inline s).startingAt chain)
  := by
  have hgives := r.gives_render_expand r.linkBound s chain
  rw [inline, hgives.startingAt_eq]
  apply hgives

/-! ### Plain replacing -/

/-- The JSON schema that a reference stands for, with what they stand for in the place of all
references inside it.  Nothing comes of it if more than `links` of them stand inside one
another. -/
def replacement (r : RefScope) : Nat → String → ExceptT RefError Option Json
  | 0, _ => ExceptT.mk none
  | links + 1, target => do
    let s ← MonadExcept.ofExcept (r.schemaAt target)
    s.render (r.replacement links)

/-- The JSON schema of a schema, with what they stand for in the place of all references, if
that comes to an end within `links` of them. -/
def plain (r : RefScope) (links : Nat) (s : Schema) : ExceptT RefError Option Json :=
  s.render (r.replacement links)

/-- Plain replacing comes to an end, with an outcome. -/
def Ends {α : Type} (w : ExceptT RefError Option α) (x : Except RefError α) : Prop :=
  w.run = some x

/-- The ends that replacing comes to carry over to sequences. -/
theorem related_ends :
  Schema.Related fun α => Ends (α := α)
  := by
  constructor
  · intro α a
    rfl
  · intro α β w x f g h hf
    rw [Ends, ExceptT.run_bind, h]
    cases x with
    | error e => rfl
    | ok a => apply hf

/-- Replacing a reference ends as replacing in the schema does that it stands for. -/
theorem ends_replacement {k : Schema → Except RefError Json}
    (h : ∀ s, r.schemaAt target = .ok s → Ends (r.plain links s) (k s)) :
  Ends (r.replacement (links + 1) target) (r.schemaAt target >>= k)
  := by
  rw [replacement]
  cases hs : r.schemaAt target with
  | error e => rfl
  | ok s => apply h s hs

/-! ### Both alike -/

/-- How many of the references written in a document are not on a chain. -/
def unmet (r : RefScope) (chain : List String) : Nat :=
  ((refTexts r.root).filter (· ∉ chain)).length

/-- With a reference of the document more on the chain, fewer are not on it. -/
theorem unmet_cons_lt (h : target ∈ refTexts r.root) (hc : target ∉ chain) :
  r.unmet (target :: chain) < r.unmet chain
  := by
  have hf : (refTexts r.root).filter (· ∉ target :: chain) =
      ((refTexts r.root).filter (· ∉ chain)).filter (· ≠ target) := by
    rw [List.filter_filter]
    apply List.filter_congr
    intro t _
    simp
  rw [unmet, unmet, hf]
  apply List.length_filter_lt_length_iff_exists.mpr
  use target
  simpa using ⟨h, hc⟩

/-- No more references are off a chain than there are. -/
theorem unmet_le (chain : List String) :
  r.unmet chain ≤ (refTexts r.root).length
  := by
  apply List.length_filter_le

/-- Replacing a reference ends with what comes of expanding it inside a chain, if it reaches
no reference again and none on the chain, and either may go on for as many links as there are
references that are not on the chain. -/
theorem ends_replacement_expand {links' : Nat} (hr : r.Acyclic (.ref target))
    (hc : ∀ t, r.Reaches (.ref target) t → t ∉ chain) (hl : r.unmet (target :: chain) < links)
    (hl' : r.unmet (target :: chain) < links') :
  Ends (r.replacement links' target) ((r.expand links target).startingAt chain)
  := by
  -- with each link the chain grows by one reference, and fewer of the document are off it
  induction links generalizing links' target chain with
  | zero => omega
  | succ links ih =>
      obtain ⟨links', rfl⟩ := Nat.exists_eq_succ_of_ne_zero (Nat.ne_zero_of_lt hl')
      have hn : target ∉ chain := hc target (.here List.mem_cons_self)
      have hg := gives_expand_succ hn fun t => r.gives_expand links t (target :: chain)
      rw [hg.startingAt_eq]
      apply ends_replacement
      intro s hs
      have hfresh : ∀ t, r.Reaches s t → t ∉ target :: chain := by
        intro t ht
        rw [List.mem_cons, not_or]
        constructor
        · rintro rfl
          apply hr t s (.here List.mem_cons_self) hs ht
        · apply hc t (.through List.mem_cons_self hs ht)
      apply related_ends.render
      intro t ht
      have hlt := unmet_cons_lt (refs_schemaAt hs ht) (hfresh t (.here ht))
      apply ih
      · apply (hr.schemaAt hs).ref ht
      · intro u hu
        apply hfresh u (hu.of_mem ht)
      · omega
      · omega

/-- However many references may be replaced inside one another: a walk through a schema leaves
the chain as it was, be it in an error, and of each schema in a list or a table comes what
comes of it alone.  On a schema that reaches no reference again and none on the chain, plain
replacing comes to an end if it may go on for long enough, and inlining has its outcome. -/
theorem inline_eq_plain (r : RefScope) (s : Schema) (chain : List String) :
  (∀ links, ((s.render (r.expand links)).run.run chain).2 = chain) ∧
    (∀ links parts, (Schema.renderList (r.expand links) parts).run.run chain =
      (parts.mapM fun s => (s.render (r.expand links)).startingAt chain, chain)) ∧
    (∀ links parts, (Schema.renderTable (r.expand links) parts).run.run chain =
      (parts.mapM fun p => (p.1, ·) <$> (p.2.render (r.expand links)).startingAt chain, chain)) ∧
    (r.Acyclic s → (∀ target, r.Reaches s target → target ∉ chain) →
      ∀ links, r.linkBound ≤ links →
        (r.plain links s).run = some ((r.inline s).startingAt chain))
  := by
  have hrender (links : Nat) (s : Schema) : (s.render (r.expand links)).startingAt chain =
      s.render fun target => (r.expand links target).startingAt chain := by
    apply (r.gives_render_expand links s chain).startingAt_eq
  constructor
  · intro links
    rw [r.gives_render_expand links s chain]
  constructor
  · intro links parts
    simp only [hrender]
    rw [← Schema.renderList_eq_mapM]
    apply (Walk.related_gives chain).renderList
    intro target _
    apply gives_expand
  constructor
  · intro links parts
    simp only [hrender]
    rw [← Schema.renderTable_eq_mapM]
    apply (Walk.related_gives chain).renderTable
    intro target _
    apply gives_expand
  · intro hr hc links hl
    rw [inline, hrender]
    apply related_ends.render
    intro t ht
    have hle := r.unmet_le (t :: chain)
    rw [linkBound] at hl
    apply ends_replacement_expand (hr.ref ht)
    · intro u hu
      apply hc u (hu.of_mem ht)
    · rw [linkBound]
      omega
    · omega

/-- A document with a schema whose two properties have one schema. -/
def pairScope : RefScope where
  root := .obj
    [("Pair", .obj
      [("properties", .obj
        [("first", .obj [("$ref", .str "#/Part")]), ("second", .obj [("$ref", .str "#/Part")])]),
       ("type", .str "object")]),
     ("Part", .obj [("type", .str "string")])]

/-- The schema of both properties. -/
theorem schemaAt_part :
  pairScope.schemaAt "#/Part" = .ok (.string ⟨none, none⟩ [])
  := by
  rfl

/-- The schema with the properties. -/
theorem schemaAt_pair :
  pairScope.schemaAt "#/Pair" =
    .ok (.object ⟨none, none⟩ [("first", .ref "#/Part"), ("second", .ref "#/Part")] [])
  := by
  rfl

/-- The schema of both properties reaches nothing. -/
theorem not_reaches_of_part {target : String} {s : Schema}
    (hs : pairScope.schemaAt "#/Part" = .ok s) :
  ¬ pairScope.Reaches s target
  := by
  rw [schemaAt_part] at hs
  cases hs
  rintro (h | h)
  · cases h
  · cases h

/-- The schema with the properties reaches the schema of both. -/
theorem reaches_of_pair {target : String} {s : Schema}
    (hs : pairScope.schemaAt "#/Pair" = .ok s) (h : pairScope.Reaches s target) :
  target = "#/Part"
  := by
  have hrefs : ∀ t ∈ s.refs, t = "#/Part" := by
    rw [schemaAt_pair] at hs
    cases hs
    decide
  cases h with
  | here h => apply hrefs target h
  | through h found rest =>
      rw [hrefs _ h] at found
      cases not_reaches_of_part found rest

/-- A reference to the schema with the properties reaches both schemas. -/
theorem reaches_pair {target : String} (h : pairScope.Reaches (.ref "#/Pair") target) :
  target = "#/Pair" ∨ target = "#/Part"
  := by
  cases h with
  | here h =>
      left
      apply List.mem_singleton.mp h
  | through h found rest =>
      right
      rw [List.mem_singleton.mp h] at found
      apply reaches_of_pair found rest

/-- Neither schema reaches itself. -/
theorem acyclic_pair :
  pairScope.Acyclic (.ref "#/Pair")
  := by
  intro target s h hs hr
  obtain rfl | rfl := reaches_pair h
  · apply absurd (reaches_of_pair hs hr)
    decide
  · apply not_reaches_of_part hs hr

/-- Inside a reference to something else, the schema of both properties is written out for
each of them, as it is by plain replacing. -/
theorem inline_pair :
  (pairScope.plain pairScope.linkBound (.ref "#/Pair")).run = some (.ok (.obj
    [("properties", .obj
      [("first", .obj [("type", .str "string")]), ("second", .obj [("type", .str "string")])]),
     ("type", .str "object")]))
  := by
  have hc : ∀ target, pairScope.Reaches (.ref "#/Pair") target → target ∉ ["#/Other"] := by
    intro target h
    obtain rfl | rfl := reaches_pair h
    · decide
    · decide
  have hplain := (inline_eq_plain pairScope (.ref "#/Pair") ["#/Other"]).2.2.2
  apply hplain acyclic_pair hc _ (Nat.le_refl _)

end RefScope

end ApiIntake.OpenApi
