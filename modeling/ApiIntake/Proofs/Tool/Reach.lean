import ApiIntake.Proofs.OpenApi.Reference
import ApiIntake.Tool.SchemaText
import Mathlib.Data.List.Basic

/-!
# What a schema reaches

A schema reaches the references in it, and what is reached by the schemas that these stand
for (`RefScope.Reaches`).  All that can be reached by way of a reference is written in the
document (`RefScope.refs_schemaAt`), so that there are only finitely many of
them.
-/

namespace ApiIntake.OpenApi

open ApiIntake.Yaml (Value)

/-! ### References in a schema -/

namespace Schema

mutual

/-- The references in a schema. -/
def refs : Schema → List String
  | .ref target => [target]
  | .array _ (some items) => items.refs
  | .object _ properties _ => refsTable properties
  | .combined _ _ parts => refsList parts
  | .negated _ part => part.refs
  | .array _ none | .string .. | .primitive .. | .any _ => []

/-- The references in the schemas of a list. -/
def refsList : List Schema → List String
  | [] => []
  | s :: rest => s.refs ++ refsList rest

/-- The references in the schemas of a table. -/
def refsTable : List (String × Schema) → List String
  | [] => []
  | (_, s) :: rest => s.refs ++ refsTable rest

end

/-- The references in the schemas that a field holds. -/
def Part.refs : Part → List String
  | .one s => s.refs
  | .many parts => refsList parts
  | .named parts => refsTable parts
  | .none => []

/-- What the schema of a field refers to, the field refers to. -/
theorem Part.refs_of_one? {p : Part} {s : Schema} (h : p.one? = some s) :
  p.refs = s.refs
  := by
  cases p with
  | one s' =>
      cases h
      rfl
  | many parts => cases h
  | named parts => cases h
  | none => cases h

/-- What the schemas of a list in a field refer to, the field refers to. -/
theorem Part.refsList_list (p : Part) :
  refsList p.list ⊆ p.refs
  := by
  cases p with
  | many parts => apply List.Subset.refl
  | one s => apply List.nil_subset
  | named parts => apply List.nil_subset
  | none => apply List.nil_subset

/-- What the schemas of a table in a field refer to, the field refers to. -/
theorem Part.refsTable_table (p : Part) :
  refsTable p.table ⊆ p.refs
  := by
  cases p with
  | named parts => apply List.Subset.refl
  | one s => apply List.nil_subset
  | many parts => apply List.nil_subset
  | none => apply List.nil_subset

/-- A schema that is put together refers to what its fields refer to. -/
theorem refs_assemble {entries : List (Value × Value)} {parts : List (String × Part)}
    {texts : List String} (h : ∀ p ∈ parts, p.2.refs ⊆ texts) :
  (assemble entries parts).refs ⊆ texts
  := by
  have hpart (name : String) : ((parts.lookup name).getD .none).refs ⊆ texts := by
    cases hl : parts.lookup name with
    | none => apply List.nil_subset
    | some p =>
        obtain ⟨l₁, l₂, rfl, -⟩ := List.lookup_eq_some_iff.mp hl
        apply h (name, p)
        apply List.mem_append_right _ List.mem_cons_self
  have hone {name : String} {s : Schema}
      (hs : ((parts.lookup name).getD .none).one? = some s) : s.refs ⊆ texts := by
    rw [← Part.refs_of_one? hs]
    apply hpart
  rw [assemble]
  cases SchemaForm.ofEntries entries with
  | array =>
      dsimp only
      cases hs : ((parts.lookup "items").getD .none).one? with
      | none => apply List.nil_subset
      | some s => apply hone hs
  | object => apply List.Subset.trans (Part.refsTable_table _) (hpart _)
  | oneOf | anyOf | allOf => apply List.Subset.trans (Part.refsList_list _) (hpart _)
  | not =>
      dsimp only
      cases hs : ((parts.lookup "not").getD .none).one? with
      | none => apply List.nil_subset
      | some s => apply hone hs
  | string | number | integer | boolean | any => apply List.nil_subset

end Schema

/-! ### References in a document -/

namespace RefScope

variable {v w : Json} {k : String} {rest members : List (String × Json)}

/-- The texts in the first member are among those in all of them. -/
theorem refTexts_subset_cons :
  refTexts v ⊆ refTextsMembers ((k, v) :: rest)
  := by
  change refTexts v ⊆ _ ++ refTexts v ++ refTextsMembers rest
  rw [List.append_assoc]
  apply List.Subset.trans (List.subset_append_left _ _) (List.subset_append_right _ _)

/-- The texts in the other members are among those in all of them. -/
theorem refTextsMembers_subset_cons :
  refTextsMembers rest ⊆ refTextsMembers ((k, v) :: rest)
  := by
  change refTextsMembers rest ⊆ _ ++ refTextsMembers rest
  apply List.subset_append_right

/-- The text under the key of a reference is one of the texts of references. -/
theorem mem_refTextsMembers {target : String}
    (h : textOf? (Value.ofJsonMembers members) "$ref" = some target) :
  target ∈ refTextsMembers members
  := by
  induction members with
  | nil => cases h
  | cons m rest ih =>
      obtain ⟨k, v⟩ := m
      cases v with
      | str s =>
          by_cases hk : k = "$ref"
          · have hs : s = target := by
              simpa [textOf?, Value.ofJsonMembers, Value.ofJson, hk] using h
            simp [refTextsMembers, hk, hs]
          · apply refTextsMembers_subset_cons (ih _)
            simpa [textOf?, Value.ofJsonMembers, Value.ofJson, hk] using h
      | null | bool _ | int _ | float _ | arr _ | obj _ =>
          apply refTextsMembers_subset_cons (ih h)

mutual

/-- What the schema of a value refers to is written in the value. -/
theorem refs_ofValue (v : Json) :
  (Schema.ofValue (Value.ofJson v)).refs ⊆ refTexts v
  := by
  match v with
  | .obj members =>
      rw [Value.ofJson, Schema.ofValue]
      cases ht : textOf? (Value.ofJsonMembers members) "$ref" with
      | some target =>
          apply List.cons_subset.mpr
          use mem_refTextsMembers ht
          apply List.nil_subset
      | none => apply Schema.refs_assemble (refs_partsOf members)
  | .null | .bool _ | .int _ | .float _ | .str _ | .arr _ => apply List.nil_subset

/-- What the fields of an object refer to is written in the members. -/
theorem refs_partsOf (members : List (String × Json)) :
  ∀ p ∈ Schema.partsOf (Value.ofJsonMembers members), p.2.refs ⊆ refTextsMembers members
  := by
  match members with
  | [] =>
      intro p hp
      cases hp
  | (k, v) :: rest =>
      rw [Value.ofJsonMembers, Schema.partsOf.eq_def, List.forall_mem_cons]
      constructor
      · apply List.Subset.trans _ refTexts_subset_cons
        dsimp only
        split
        · match v with
          | .obj members => apply refs_ofValue
          | .null | .bool _ | .int _ | .float _ | .str _ | .arr _ => apply List.nil_subset
        split
        · match v with
          | .obj members => apply refs_ofTable
          | .null | .bool _ | .int _ | .float _ | .str _ | .arr _ => apply List.nil_subset
        split
        · match v with
          | .arr items => apply refs_ofList
          | .null | .bool _ | .int _ | .float _ | .str _ | .obj _ => apply List.nil_subset
        · apply List.nil_subset
      · intro p hp
        apply List.Subset.trans (refs_partsOf rest p hp) refTextsMembers_subset_cons

/-- What the schemas of a list refer to is written in the items. -/
theorem refs_ofList (items : List Json) :
  Schema.refsList (Schema.ofList (Value.ofJsonItems items)) ⊆ refTextsItems items
  := by
  match items with
  | [] => apply List.nil_subset
  | v :: rest =>
      apply List.append_subset.mpr
      constructor
      · apply List.Subset.trans (refs_ofValue v) (List.subset_append_left _ _)
      · apply List.Subset.trans (refs_ofList rest) (List.subset_append_right _ _)

/-- What the schemas of a table refer to is written in the members. -/
theorem refs_ofTable (members : List (String × Json)) :
  Schema.refsTable (Schema.ofTable (Value.ofJsonMembers members)) ⊆ refTextsMembers members
  := by
  match members with
  | [] => apply List.nil_subset
  | (k, v) :: rest =>
      apply List.append_subset.mpr
      constructor
      · apply List.Subset.trans (refs_ofValue v) refTexts_subset_cons
      · apply List.Subset.trans (refs_ofTable rest) refTextsMembers_subset_cons

end

/-- The texts in a part of a value are among those in the value. -/
theorem refTexts_child? {token : String} (h : v.child? token = some w) :
  refTexts w ⊆ refTexts v
  := by
  cases v with
  | obj members =>
      obtain ⟨l₁, l₂, rfl, -⟩ := List.lookup_eq_some_iff.mp h
      rw [refTexts]
      clear h
      induction l₁ with
      | nil => apply refTexts_subset_cons
      | cons m l₁ ih => apply List.Subset.trans ih refTextsMembers_subset_cons
  | arr items =>
      obtain ⟨i, -, hi⟩ := Option.bind_eq_some_iff.mp h
      rw [refTexts]
      clear h
      induction items generalizing i with
      | nil => cases hi
      | cons v items ih =>
          cases i with
          | zero =>
              cases hi
              apply List.subset_append_left
          | succ i => apply List.Subset.trans (ih i hi) (List.subset_append_right _ _)
  | null | bool _ | int _ | float _ | str _ => cases h

/-- The texts in what a pointer selects are among those in the value. -/
theorem refTexts_pointer? {pointer : List Char} (h : v.pointer? pointer = some w) :
  refTexts w ⊆ refTexts v
  := by
  obtain ⟨tokens, -, ht⟩ := Option.bind_eq_some_iff.mp h
  clear h
  induction tokens generalizing v with
  | nil =>
      cases ht
      apply List.Subset.refl
  | cons token tokens ih =>
      rw [List.foldlM_cons] at ht
      obtain ⟨v', hv, ht⟩ := Option.bind_eq_some_iff.mp ht
      apply List.Subset.trans (ih ht) (refTexts_child? hv)

variable {r : RefScope} {target : String} {s : Schema}

/-- The texts in what a reference points to are texts of the document. -/
theorem refTexts_lookup (h : r.lookup target = .ok v) :
  refTexts v ⊆ refTexts r.root
  := by
  rw [lookup] at h
  split at h
  · split at h
    · rename_i hp
      cases h
      apply refTexts_pointer? hp
    · cases h
  · cases h
  · cases h

/-- What a schema refers to that a reference points to is written in the document. -/
theorem refs_follow (h : r.follow Schema.decode? target = .ok (.inline s)) :
  s.refs ⊆ refTexts r.root
  := by
  obtain ⟨v, hv, h⟩ := bind_eq_ok_iff.mp h
  split at h
  · rename_i x hx
    cases h
    obtain ⟨_, -, hx⟩ := Option.map_eq_some_iff.mp hx
    rw [RefOr.ofValue] at hx
    split at hx
    · cases hx
    · cases hx
      apply List.Subset.trans (refs_ofValue v) (refTexts_lookup hv)
  · cases h

/-- What a schema refers to that a reference leads to is written in the document. -/
theorem refs_leadsTo {x : RefOr Schema} (h : r.LeadsTo Schema.decode? x s)
    (hx : ∀ s, x = .inline s → s.refs ⊆ refTexts r.root) :
  s.refs ⊆ refTexts r.root
  := by
  induction h with
  | inline => apply hx _ rfl
  | ref hf rest ih =>
      apply ih
      rintro s rfl
      apply refs_follow hf

/-- What a schema refers to that a reference stands for is written in the document. -/
theorem refs_schemaAt (h : r.schemaAt target = .ok s) :
  s.refs ⊆ refTexts r.root
  := by
  apply refs_leadsTo (leadsTo_of_resolve h)
  rintro s ⟨⟩

/-! ### Reaching references -/

/-- A schema reaches a reference. -/
inductive Reaches (r : RefScope) : Schema → String → Prop
  /-- It reaches what it refers to. -/
  | here {s : Schema} {target : String} (h : target ∈ s.refs) :
    Reaches r s target
  /-- It reaches what is reached by a schema that it refers to. -/
  | through {s s' : Schema} {next target : String} (h : next ∈ s.refs)
    (found : r.schemaAt next = .ok s') (rest : Reaches r s' target) :
    Reaches r s target

/-- No reference that a schema reaches is reached again by the schema that it stands for. -/
def Acyclic (r : RefScope) (s : Schema) : Prop :=
  ∀ target s', r.Reaches s target → r.schemaAt target = .ok s' → ¬ r.Reaches s' target

/-- What a reference in a schema reaches, the schema reaches. -/
theorem Reaches.of_mem {t : String} (h : r.Reaches (.ref target) t) (ht : target ∈ s.refs) :
  r.Reaches s t
  := by
  cases h with
  | here h =>
      cases List.mem_singleton.mp h
      apply Reaches.here ht
  | through h found rest =>
      cases List.mem_singleton.mp h
      apply Reaches.through ht found rest

/-- A reference in a schema does not reach itself if no reference in the schema does. -/
theorem Acyclic.ref (h : r.Acyclic s) (ht : target ∈ s.refs) :
  r.Acyclic (.ref target)
  := by
  intro t s' hr
  apply h t s' (hr.of_mem ht)

/-- No reference in what a reference stands for reaches itself if none does that the
reference reaches. -/
theorem Acyclic.schemaAt (h : r.Acyclic (.ref target)) (hs : r.schemaAt target = .ok s) :
  r.Acyclic s
  := by
  intro t s' hr
  apply h t s' (.through List.mem_cons_self hs hr)

end RefScope

end ApiIntake.OpenApi
