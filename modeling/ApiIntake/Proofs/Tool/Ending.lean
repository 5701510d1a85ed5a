import ApiIntake.Proofs.Tool.Inlining
import Mathlib.Data.List.Dedup
import Mathlib.Data.List.Nodup
import Mathlib.Data.List.Perm.Subperm
import Mathlib.Logic.Relation

/-!
# Inlining comes to an end

Inlining calls itself for the schemas inside a schema, and for the schema that a reference
stands for, inside one more reference (`RefScope.Calls`).  Behind the first reference all
others are written in the document, and with each of them fewer are off the chain: this is the
induction that all of this rests on (`RefScope.schema_induction`).  So there are no infinitely
many calls inside one another, and what comes of inlining is what the calls come to, whatever
bound there is on the links (`RefScope.inlining_ends`).
-/

namespace ApiIntake.OpenApi

open ApiIntake.Yaml (Value)
open Relation (ReflTransGen)

/-! ### What is inside a schema -/

namespace Schema

/-- Rendering what a field may hold comes to the schemas right inside it. -/
inductive Part.Opens : Part → Part → Prop
  /-- The schema of the items of an array. -/
  | items {notes : Notes} {items : Schema} :
    Opens (.one (.array notes (some items))) (.one items)
  /-- The table of the properties of an object. -/
  | properties {notes : Notes} {properties : List (String × Schema)} {required : List String} :
    Opens (.one (.object notes properties required)) (.named properties)
  /-- The list of the schemas of a combination. -/
  | parts {notes : Notes} {how : Combination} {parts : List Schema} :
    Opens (.one (.combined notes how parts)) (.many parts)
  /-- The schema that is negated. -/
  | negated {notes : Notes} {part : Schema} :
    Opens (.one (.negated notes part)) (.one part)
  /-- A schema of a list. -/
  | member {parts : List Schema} {s : Schema} (h : s ∈ parts) :
    Opens (.many parts) (.one s)
  /-- A schema of a table. -/
  | property {parts : List (String × Schema)} {name : String} {s : Schema}
    (h : (name, s) ∈ parts) :
    Opens (.named parts) (.one s)

/-- What a schema of a list refers to, the list refers to. -/
theorem refs_subset_refsList {parts : List Schema} {s : Schema} (h : s ∈ parts) :
  s.refs ⊆ refsList parts
  := by
  induction parts with
  | nil => cases h
  | cons s' rest ih =>
      obtain rfl | h := List.mem_cons.mp h
      · apply List.subset_append_left
      · apply List.Subset.trans (ih h) (List.subset_append_right _ _)

/-- What a schema of a table refers to, the table refers to. -/
theorem refs_subset_refsTable {parts : List (String × Schema)} {name : String} {s : Schema}
    (h : (name, s) ∈ parts) :
  s.refs ⊆ refsTable parts
  := by
  induction parts with
  | nil => cases h
  | cons p rest ih =>
      obtain rfl | h := List.mem_cons.mp h
      · apply List.subset_append_left
      · apply List.Subset.trans (ih h) (List.subset_append_right _ _)

/-- What a list refers to, a schema of the list refers to. -/
theorem exists_of_mem_refsList {parts : List Schema} {target : String}
    (h : target ∈ refsList parts) :
  ∃ s ∈ parts, target ∈ s.refs
  := by
  induction parts with
  | nil => cases h
  | cons s rest ih =>
      obtain h | h := List.mem_append.mp h
      · use s, List.mem_cons_self
      · obtain ⟨s', hs, ht⟩ := ih h
        use s', List.mem_cons_of_mem s hs

/-- What a table refers to, a schema of the table refers to. -/
theorem exists_of_mem_refsTable {parts : List (String × Schema)} {target : String}
    (h : target ∈ refsTable parts) :
  ∃ name s, (name, s) ∈ parts ∧ target ∈ s.refs
  := by
  induction parts with
  | nil => cases h
  | cons p rest ih =>
      obtain h | h := List.mem_append.mp h
      · use p.1, p.2, List.mem_cons_self
      · obtain ⟨name, s, hs, ht⟩ := ih h
        use name, s, List.mem_cons_of_mem p hs

namespace Part.Opens

variable {p p' : Part} {target : String}

/-- What is inside refers to nothing else. -/
theorem refs_subset (h : p.Opens p') :
  p'.refs ⊆ p.refs
  := by
  cases h with
  | items | properties | parts | negated => apply List.Subset.refl
  | member h => apply refs_subset_refsList h
  | property h => apply refs_subset_refsTable h

/-- What is inside is smaller. -/
theorem sizeOf_lt (h : p.Opens p') :
  sizeOf p' < sizeOf p
  := by
  cases h with
  | items | properties | parts | negated =>
      simp only [Part.one.sizeOf_spec, Part.many.sizeOf_spec, Part.named.sizeOf_spec,
        array.sizeOf_spec, object.sizeOf_spec, combined.sizeOf_spec, negated.sizeOf_spec,
        Option.some.sizeOf_spec]
      omega
  | member h =>
      have hlt := List.sizeOf_lt_of_mem h
      rw [Part.one.sizeOf_spec, Part.many.sizeOf_spec]
      omega
  | property h =>
      have hlt := List.sizeOf_lt_of_mem h
      rw [Prod.mk.sizeOf_spec] at hlt
      rw [Part.one.sizeOf_spec, Part.named.sizeOf_spec]
      omega

/-- Step by step, rendering comes to every reference. -/
theorem of_mem_refs (h : target ∈ p.refs) :
  ReflTransGen Part.Opens p (.one (.ref target))
  := by
  induction hn : sizeOf p using Nat.strongRecOn generalizing p with
  | ind n ih =>
      subst hn
      have through {p' : Part} (hopen : p.Opens p') (hp : target ∈ p'.refs) :
          ReflTransGen Part.Opens p (.one (.ref target)) := by
        apply ReflTransGen.head hopen
        apply ih _ hopen.sizeOf_lt hp rfl
      match p with
      | .one (.ref t) =>
          cases List.mem_singleton.mp h
          apply ReflTransGen.refl
      | .one (.array _ (some _)) => apply through .items h
      | .one (.object ..) => apply through .properties h
      | .one (.combined ..) => apply through .parts h
      | .one (.negated ..) => apply through .negated h
      | .one (.array _ Option.none) | .one (.string ..) | .one (.primitive ..) | .one (.any _) =>
          cases h
      | .many schemas =>
          obtain ⟨s, hs, ht⟩ := exists_of_mem_refsList h
          apply through (.member hs) ht
      | .named table =>
          obtain ⟨name, s, hs, ht⟩ := exists_of_mem_refsTable h
          apply through (.property hs) ht
      | .none => cases h

end Part.Opens

/-- Rendering with references of one meaning comes to one thing. -/
theorem related_eq {m : Type → Type} [Monad m] :
  Related fun α (x y : m α) => x = y
  := by
  constructor
  · intro α a
    rfl
  · rintro α β x y f g rfl h
    rw [funext h]

end Schema

namespace RefScope

variable {r : RefScope} {links links' : Nat} {chain : List String} {target : String} {s : Schema}
  {p : Schema.Part}

/-! ### Calls -/

/-- A call of inlining. -/
structure Call where
  /-- The references that it is inside of, the innermost first. -/
  chain : List String
  /-- What is inlined. -/
  part : Schema.Part

/-- One call of inlining makes another one. -/
inductive Calls (r : RefScope) : Call → Call → Prop
  /-- What is inside is inlined on the same chain. -/
  | inside {chain : List String} {p p' : Schema.Part} (h : p.Opens p') :
    Calls r ⟨chain, p⟩ ⟨chain, p'⟩
  /-- The schema that a reference stands for is inlined with the reference on the chain, if it is
  not there already. -/
  | through {chain : List String} {target : String} {s : Schema} (h : target ∉ chain)
    (found : r.schemaAt target = .ok s) :
    Calls r ⟨chain, .one (.ref target)⟩ ⟨target :: chain, .one s⟩

/-- A schema has a property on every chain, if each schema has it on a chain when all schemas
have it that the references inside stand for, with the reference on the chain. -/
theorem schema_induction {P : List String → Schema → Prop}
    (step : ∀ chain s, (∀ target ∈ s.refs, target ∉ chain →
      ∀ s', r.schemaAt target = .ok s' → P (target :: chain) s') → P chain s)
    (chain : List String) (s : Schema) :
  P chain s
  := by
  have written (n : Nat) :
      ∀ chain s, s.refs ⊆ refTexts r.root → r.unmet chain < n → P chain s := by
    induction n with
    | zero =>
        intro chain s _ hn
        omega
    | succ n ih =>
        intro chain s hs hn
        apply step
        intro target ht hc s' found
        have hlt := unmet_cons_lt (hs ht) hc
        apply ih _ _ (refs_schemaAt found)
        omega
  apply step
  intro target _ _ s' found
  apply written _ _ _ (refs_schemaAt found) (Nat.lt_succ_self _)

/-- There are no infinitely many calls inside one another if there are none behind the
references. -/
theorem acc_of_refs
    (h : ∀ target ∈ p.refs, target ∉ chain → ∀ s, r.schemaAt target = .ok s →
      Acc (flip r.Calls) ⟨target :: chain, .one s⟩) :
  Acc (flip r.Calls) ⟨chain, p⟩
  := by
  induction hn : sizeOf p using Nat.strongRecOn generalizing p with
  | ind n ih =>
      subst hn
      constructor
      intro c hc
      cases hc with
      | inside hopen =>
          apply ih _ hopen.sizeOf_lt _ rfl
          intro target ht
          apply h target (hopen.refs_subset ht)
      | through hc found => apply h _ List.mem_cons_self hc _ found

/-- There are never infinitely many calls inside one another. -/
theorem acc_calls (r : RefScope) (c : Call) :
  Acc (flip r.Calls) c
  := by
  apply acc_of_refs
  intro target _ _ s _
  apply r.schema_induction (P := fun chain s => Acc (flip r.Calls) ⟨chain, .one s⟩)
  intro chain s ih
  apply acc_of_refs
  apply ih

/-- A schema is rendered by way of no other references than those that calls on the same chain
come to. -/
theorem render_congr_of_calls {m : Type → Type} [Monad m] {f g : String → m Json}
    (h : ∀ target, ReflTransGen r.Calls ⟨chain, .one s⟩ ⟨chain, .one (.ref target)⟩ →
      f target = g target) :
  s.render f = s.render g
  := by
  apply Schema.related_eq.render
  intro target ht
  have hopens : ReflTransGen Schema.Part.Opens (.one s) (.one (.ref target)) := by
    apply Schema.Part.Opens.of_mem_refs ht
  apply h
  apply hopens.lift fun p => Call.mk chain p
  intro p p' hopen
  apply Calls.inside hopen

/-! ### Chains of calls -/

/-- A call is inside further references than another one. -/
structure Deeper (r : RefScope) (c : Call) (more : List String) (c' : Call) : Prop where
  /-- They are put before the others. -/
  chain : c'.chain = more ++ c.chain
  /-- No two of them are the same. -/
  nodup : more.Nodup
  /-- None of them has been on the chain. -/
  fresh : ∀ t ∈ more, t ∉ c.chain
  /-- They are written in what is inlined first or in the document. -/
  written : more ⊆ c.part.refs ++ refTexts r.root
  /-- So is what they lead to. -/
  refs : c'.part.refs ⊆ c.part.refs ++ refTexts r.root

variable {c c' c'' : Call} {more : List String}

/-- One more call goes deeper by one reference at most. -/
theorem Deeper.step (h : r.Deeper c more c') (hc : r.Calls c' c'') :
  ∃ more, r.Deeper c more c''
  := by
  cases hc with
  | inside hopen =>
      use more
      constructor
      · apply h.chain
      · apply h.nodup
      · apply h.fresh
      · apply h.written
      · apply List.Subset.trans hopen.refs_subset h.refs
  | @through chain target s hn found =>
      obtain rfl : chain = more ++ c.chain := h.chain
      rw [List.mem_append, not_or] at hn
      use target :: more
      constructor
      · rfl
      · apply List.nodup_cons.mpr ⟨hn.1, h.nodup⟩
      · rw [List.forall_mem_cons]
        use hn.2, h.fresh
      · apply List.cons_subset.mpr ⟨h.refs List.mem_cons_self, h.written⟩
      · apply List.Subset.trans (refs_schemaAt found) (List.subset_append_right _ _)

/-- Calls inside one another go deeper. -/
theorem exists_deeper (h : ReflTransGen r.Calls c c') :
  ∃ more, r.Deeper c more c'
  := by
  induction h with
  | refl =>
      use []
      constructor
      · rfl
      · apply List.nodup_nil
      · apply List.forall_mem_nil
      · apply List.nil_subset
      · apply List.subset_append_left
  | tail _ hc ih =>
      obtain ⟨more, hm⟩ := ih
      apply hm.step hc

/-- No reference is on the chain twice if none has been in the beginning. -/
theorem Deeper.nodup_chain (h : r.Deeper c more c') (hc : c.chain.Nodup) :
  c'.chain.Nodup
  := by
  rw [h.chain]
  apply h.nodup.append hc
  apply h.fresh

/-- The chain grows by no more references than there are different ones. -/
theorem Deeper.length_chain_le {texts : List String} (h : r.Deeper c more c')
    (hp : c.part.refs ⊆ texts) (hr : refTexts r.root ⊆ texts) :
  c'.chain.length ≤ texts.dedup.length + c.chain.length
  := by
  have hsub : more ⊆ texts.dedup := by
    intro t ht
    apply List.mem_dedup.mpr (List.append_subset.mpr ⟨hp, hr⟩ (h.written ht))
  have hle := (List.subperm_of_subset h.nodup hsub).length_le
  rw [h.chain, List.length_append]
  omega

/-! ### What the calls come to -/

/-- Of a reference on the chain comes any object. -/
theorem startingAt_expand_of_mem (h : target ∈ chain) :
  (r.expand links target).startingAt chain = .ok anyObject
  := by
  apply (gives_expand_of_mem h).startingAt_eq

/-- Of a schema comes what comes of its references one by one. -/
theorem startingAt_render_expand (links : Nat) (s : Schema) (chain : List String) :
  (s.render (r.expand links)).startingAt chain =
    s.render fun target => (r.expand links target).startingAt chain
  := by
  apply (r.gives_render_expand links s chain).startingAt_eq

/-- Of a reference that is not on the chain comes what comes of the schema that it stands for,
with the reference on the chain. -/
theorem startingAt_expand_of_notMem (h : target ∉ chain) :
  (r.expand (links + 1) target).startingAt chain =
    r.schemaAt target >>= fun s => (s.render (r.expand links)).startingAt (target :: chain)
  := by
  simp only [startingAt_render_expand]
  apply (gives_expand_succ h fun t => r.gives_expand links t _).startingAt_eq

/-- What comes of a reference does not depend on how many links there may be, if there may be
more than there are references that are not on the chain. -/
theorem startingAt_expand_congr (hl : r.unmet (target :: chain) < links)
    (hl' : r.unmet (target :: chain) < links') :
  (r.expand links target).startingAt chain = (r.expand links' target).startingAt chain
  := by
  induction links generalizing links' target chain with
  | zero => omega
  | succ links ih =>
      obtain ⟨links', rfl⟩ := Nat.exists_eq_succ_of_ne_zero (Nat.ne_zero_of_lt hl')
      by_cases hc : target ∈ chain
      · rw [startingAt_expand_of_mem hc, startingAt_expand_of_mem hc]
      rw [startingAt_expand_of_notMem hc, startingAt_expand_of_notMem hc]
      cases hs : r.schemaAt target with
      | error e => rfl
      | ok s =>
          change (s.render (r.expand links)).startingAt (target :: chain) =
            (s.render (r.expand links')).startingAt (target :: chain)
          rw [startingAt_render_expand, startingAt_render_expand]
          apply Schema.related_eq.render
          intro t ht
          by_cases htc : t ∈ target :: chain
          · rw [startingAt_expand_of_mem htc, startingAt_expand_of_mem htc]
          have hlt := unmet_cons_lt (refs_schemaAt hs ht) htc
          apply ih
          · omega
          · omega

/-- A schema is inlined to one thing however many links there may be, if there may be more than
there are references in the document. -/
theorem gives_render_inline (hl : (refTexts r.root).length < links) (s : Schema)
    (chain : List String) :
  (s.render (r.expand links)).Gives chain ((r.inline s).startingAt chain)
  := by
  have heq : (r.inline s).startingAt chain =
      s.render fun target => (r.expand links target).startingAt chain := by
    rw [inline, startingAt_render_expand]
    apply Schema.related_eq.render
    intro target _
    have hle := r.unmet_le (target :: chain)
    apply startingAt_expand_congr
    · rw [linkBound]
      omega
    · omega
  rw [heq]
  apply gives_render_expand

/-- A schema is inlined by way of what its references stand for, without any bound on the
links. -/
theorem startingAt_inline (r : RefScope) (s : Schema) (chain : List String) :
  (r.inline s).startingAt chain =
    s.render fun target =>
      if target ∈ chain then .ok anyObject
      else r.schemaAt target >>= fun s => (r.inline s).startingAt (target :: chain)
  := by
  rw [inline, startingAt_render_expand]
  apply Schema.related_eq.render
  intro target _
  by_cases hc : target ∈ chain
  · rw [startingAt_expand_of_mem hc, if_pos hc]
  rw [if_neg hc, linkBound, startingAt_expand_of_notMem hc]
  congr 1
  funext s
  apply (gives_render_inline (Nat.lt_succ_self _) s (target :: chain)).startingAt_eq

/-- Nothing else than what inlining comes to can come of the references one by one. -/
theorem eq_startingAt_inline_iff {f : List String → Schema → Except RefError Json} :
  (∀ chain s, f chain s = s.render fun target =>
      if target ∈ chain then .ok anyObject else r.schemaAt target >>= f (target :: chain)) ↔
    f = fun chain s => (r.inline s).startingAt chain
  := by
  constructor
  · intro hf
    funext chain s
    apply r.schema_induction (P := fun chain s => f chain s = (r.inline s).startingAt chain)
    intro chain s ih
    rw [hf, startingAt_inline]
    apply Schema.related_eq.render
    intro target ht
    by_cases hc : target ∈ chain
    · rw [if_pos hc, if_pos hc]
    rw [if_neg hc, if_neg hc]
    cases hs : r.schemaAt target with
    | error e => rfl
    | ok s' => apply ih target ht hc s' hs
  · rintro rfl chain s
    apply startingAt_inline

/-- Inlining ends.  There are never infinitely many calls inside one another.  If the chain that
they begin with holds no reference twice, neither does any chain that they come to, which is
longer by no more than there are different references in the document and in what is inlined.
What is read from the document refers only to what the document writes.  A schema is rendered by
way of no other references than those that calls come to.  What comes of inlining solves the
equation of the recursion, which has no other solution, and more links than there are to follow
make no difference.  A reference on the chain makes no call, and is any object whatever the
document is. -/
theorem inlining_ends (r : RefScope) (chain : List String) (h : chain.Nodup) :
  (∀ p, Acc (flip r.Calls) ⟨chain, p⟩) ∧
    (∀ p c, ReflTransGen r.Calls ⟨chain, p⟩ c →
      c.chain.Nodup ∧ chain <:+ c.chain ∧
        c.chain.length ≤ (p.refs ++ refTexts r.root).dedup.length + chain.length ∧
        (p.refs ⊆ refTexts r.root →
          c.chain.length ≤ (refTexts r.root).dedup.length + chain.length)) ∧
    (∀ pointer v, r.root.pointer? pointer = some v →
      (Schema.ofValue (Value.ofJson v)).refs ⊆ refTexts r.root) ∧
    (∀ s, ∀ f g : String → Except RefError Json,
      (∀ target, ReflTransGen r.Calls ⟨chain, .one s⟩ ⟨chain, .one (.ref target)⟩ →
        f target = g target) → s.render f = s.render g) ∧
    (∀ f : List String → Schema → Except RefError Json,
      (∀ chain s, f chain s = s.render fun target =>
          if target ∈ chain then .ok anyObject else r.schemaAt target >>= f (target :: chain)) ↔
        f = fun chain s => (r.inline s).startingAt chain) ∧
    (∀ s links, r.linkBound ≤ links →
      (s.render (r.expand links)).run.run chain = ((r.inline s).startingAt chain, chain)) ∧
    ∀ target ∈ chain, (∀ c, ¬ r.Calls ⟨chain, .one (.ref target)⟩ c) ∧
      ∀ r' : RefScope, (r'.inline (.ref target)).run.run chain =
        (.ok (.obj [("type", .str "object")]), chain)
  := by
  use fun p => r.acc_calls ⟨chain, p⟩
  constructor
  · intro p c hc
    obtain ⟨more, hm⟩ := exists_deeper hc
    use hm.nodup_chain h
    constructor
    · rw [hm.chain]
      apply List.suffix_append
    constructor
    · apply hm.length_chain_le (List.subset_append_left _ _) (List.subset_append_right _ _)
    · intro hp
      apply hm.length_chain_le hp (List.Subset.refl _)
  constructor
  · intro pointer v hv
    apply List.Subset.trans (refs_ofValue v) (refTexts_pointer? hv)
  constructor
  · intro s f g hfg
    apply render_congr_of_calls hfg
  constructor
  · intro f
    apply eq_startingAt_inline_iff
  constructor
  · intro s links hl
    rw [linkBound] at hl
    apply gives_render_inline
    omega
  · intro target ht
    constructor
    · intro c hc
      cases hc with
      | inside hopen => cases hopen
      | through hn => apply hn ht
    · intro r'
      apply gives_expand_of_mem ht

/-- A document with a schema that refers to itself by way of another reference. -/
def treeScope : RefScope where
  root := .obj
    [("Child", .obj [("$ref", .str "#/Tree")]),
     ("Tree", .obj
      [("items", .obj [("$ref", .str "#/Child")]), ("type", .str "array")])]

/-- The schema of a tree. -/
def treeSchema : Schema := .array ⟨none, none⟩ (some (.ref "#/Child"))

/-- Inlining a tree calls itself inside both of the references that the document has, and never
inside more. -/
theorem inlining_tree_ends :
  ReflTransGen treeScope.Calls ⟨[], .one (.ref "#/Tree")⟩
      ⟨["#/Child", "#/Tree"], .one treeSchema⟩ ∧
    (∀ c, ReflTransGen treeScope.Calls ⟨[], .one (.ref "#/Tree")⟩ c →
      c.chain.Nodup ∧ c.chain.length ≤ 2) ∧
    (treeScope.inline (.ref "#/Tree")).startingAt [] = .ok (.obj
      [("items", .obj [("items", .obj [("type", .str "object")]), ("type", .str "array")]),
       ("type", .str "array")])
  := by
  constructor
  · have hitems : treeScope.Calls ⟨["#/Tree"], .one treeSchema⟩
        ⟨["#/Tree"], .one (.ref "#/Child")⟩ := .inside .items
    apply ReflTransGen.head (.through (by decide) rfl)
    apply ReflTransGen.head hitems
    apply ReflTransGen.single (.through (by decide) rfl)
  constructor
  · intro c hc
    obtain ⟨-, hpaths, -⟩ := inlining_ends treeScope [] List.nodup_nil
    obtain ⟨hnodup, -, -, hle⟩ := hpaths _ c hc
    use hnodup
    apply hle
    decide
  · rfl

end RefScope

end ApiIntake.OpenApi
