import ApiIntake.Proofs.Conversion.Reading
import ApiIntake.Proofs.Json.Members
import ApiIntake.Proofs.Tool.Following

/-!
# What inlined schemas admit

A value is valid against a JSON schema if all keywords hold of it (`Json.validates`), and a schema
of a document admits it by a finite derivation, in which references are followed
(`RefScope.Admits`).  An inlined schema is any object where a reference is met inside of itself.  So
what a schema admits is valid against the JSON schema that it is inlined to, if those references
admit objects only that are met again beneath an item or a property of the schemas that they stand
for (`RefScope.validates_inline`).
-/

namespace ApiIntake

open ApiIntake.OpenApi

/-! ### Validity against JSON schemas -/

/-- Whether a number has no fractional part. -/
def Binary64.isWhole (x : Binary64) : Bool := x.m % Nat.pow 2 (-x.q).toNat = 0

namespace Json

/-- Whether a value has the type with a name. -/
def hasType (type : String) : Json → Bool
  | .null => type = "null"
  | .bool _ => type = "boolean"
  | .int _ => type = "integer" || type = "number"
  | .float x => type = "number" || (type = "integer" && x.isWhole)
  | .str _ => type = "string"
  | .arr _ => type = "array"
  | .obj _ => type = "object"

/-- Whether an object has a member with a key. -/
def hasKey (members : List (String × Json)) (key : Json) : Bool :=
  members.any fun m => key.text? = some m.1

/-- Whether two values are the same but for the order of members. -/
def isSame (v w : Json) : Bool := v.sorted.compact = w.sorted.compact

/-- Whether a keyword with a value holds of another value, given what is valid against the JSON
schema that it has, and the verdicts of those that it has in a list and for properties.  A keyword
of any other name always holds. -/
def keywordHolds (key : String) (j : Json) (valid : Json → Bool) (verdicts : Json → List Bool)
    (propertiesHold : List (String × Json) → Bool) (v : Json) : Bool :=
  if key = "type" then (j.text?.map fun type => v.hasType type).getD false
  else if key = "enum" then
    match j with
    | .arr choices => choices.any fun c => c.isSame v
    | _ => false
  else if key = "items" then
    match v with
    | .arr items => items.all valid
    | _ => true
  else if key = "properties" then
    match v with
    | .obj members => propertiesHold members
    | _ => true
  else if key = "required" then
    match j, v with
    | .arr keys, .obj members => keys.all fun k => hasKey members k
    | _, _ => true
  else if key = "anyOf" then (verdicts v).any id
  else if key = "allOf" then (verdicts v).all id
  else if key = "oneOf" then (verdicts v).count true = 1
  else if key = "not" then !valid v
  else true

mutual

/-- Whether a value is valid against a JSON schema. -/
def validates : Json → Json → Bool
  | .obj keywords, v => keywordsHold keywords v
  | .bool b, _ => b
  | _, _ => false
termination_by structural x => x

/-- Whether all keywords of a JSON schema hold of a value. -/
def keywordsHold : List (String × Json) → Json → Bool
  | [], _ => true
  | (key, j) :: rest, v =>
    keywordHolds key j (validates j) (verdicts j) (propertiesHold j) v && keywordsHold rest v
termination_by structural x => x

/-- The verdicts of the JSON schemas of a list on a value. -/
def verdicts : Json → Json → List Bool
  | .arr parts, v => verdictsOfParts parts v
  | _, _ => []
termination_by structural x => x

/-- The verdicts of JSON schemas on a value. -/
def verdictsOfParts : List Json → Json → List Bool
  | [], _ => []
  | j :: rest, v => validates j v :: verdictsOfParts rest v
termination_by structural x => x

/-- Whether the members of an object are valid against the JSON schemas of a table. -/
def propertiesHold : Json → List (String × Json) → Bool
  | .obj properties, members => membersHold properties members
  | _, _ => true
termination_by structural x => x

/-- Whether the members of an object are valid against the JSON schemas of their names. -/
def membersHold : List (String × Json) → List (String × Json) → Bool
  | [], _ => true
  | (name, j) :: rest, members =>
    (members.all fun m => m.1 ≠ name || validates j m.2) && membersHold rest members
termination_by structural x => x

end

/-- Whether one keyword of a JSON schema holds of a value. -/
def memberHolds (m : String × Json) (v : Json) : Bool :=
  keywordHolds m.1 m.2 m.2.validates m.2.verdicts m.2.propertiesHold v

section

variable {keywords members : List (String × Json)} {v : Json}

/-- A value is valid if every keyword holds of it. -/
theorem validates_of_forall_mem (h : ∀ m ∈ keywords, memberHolds m v = true) :
  (obj keywords).validates v = true
  := by
  rw [validates]
  induction keywords with
  | nil => rfl
  | cons m rest ih =>
      obtain ⟨hm, hrest⟩ := List.forall_mem_cons.mp h
      rw [keywordsHold, Bool.and_eq_true]
      use hm, ih hrest

/-- Properties hold of the members of an object if the JSON schema of each is valid for the members
with its name. -/
theorem membersHold_of_forall_mem {properties : List (String × Json)}
    (h : ∀ p ∈ properties, ∀ w, (p.1, w) ∈ members → p.2.validates w = true) :
  membersHold properties members = true
  := by
  induction properties with
  | nil => rfl
  | cons p rest ih =>
      obtain ⟨hp, hrest⟩ := List.forall_mem_cons.mp h
      rw [membersHold, Bool.and_eq_true, List.all_eq_true]
      constructor
      · rintro ⟨key, w⟩ hm
        by_cases hkey : key = p.1
        · subst hkey
          simp [hp w hm]
        · simp [hkey]
      · apply ih hrest

/-- The verdicts of JSON schemas are given one by one. -/
theorem verdictsOfParts_eq_map (parts : List Json) (v : Json) :
  verdictsOfParts parts v = parts.map fun j => j.validates v
  := by
  induction parts with
  | nil => rfl
  | cons j rest ih => rw [verdictsOfParts, ih, List.map_cons]

end

end Json

/-! ### What schemas admit -/

namespace OpenApi

namespace RefScope

/-- A schema admits a value by a finite derivation, in which references are followed.  Nothing is
admitted by a negation, by a schema of any value or by a combination of which one has to hold. -/
inductive Admits (r : RefScope) : Schema → Json → Prop
  /-- A reference admits what the schema admits that it stands for. -/
  | ref {target : String} {s : Schema} {v : Json} (found : r.schemaAt target = .ok s)
    (h : Admits r s v) :
    Admits r (.ref target) v
  /-- Texts out of a list, if there is one. -/
  | string {notes : Notes} {choices : List (Option String)} {text : String}
    (h : choices ≠ [] → some text ∈ choices) :
    Admits r (.string notes choices) (.str text)
  /-- Values of a type. -/
  | primitive {notes : Notes} {type : Primitive} {v : Json} (h : v.hasType type.text = true) :
    Admits r (.primitive notes type) v
  /-- Arrays of items that are admitted. -/
  | array {notes : Notes} {items : Option Schema} {vs : List Json}
    (each : ∀ s, items = some s → ∀ v ∈ vs, Admits r s v) :
    Admits r (.array notes items) (.arr vs)
  /-- Objects that have all required members, and whose members are admitted by the properties of
  their names. -/
  | object {notes : Notes} {properties : List (String × Schema)} {required : List String}
    {members : List (String × Json)}
    (each : ∀ p ∈ properties, ∀ v, (p.1, v) ∈ members → Admits r p.2 v)
    (all : ∀ name ∈ required, ∃ v, (name, v) ∈ members) :
    Admits r (.object notes properties required) (.obj members)
  /-- What one of the schemas admits. -/
  | anyOf {notes : Notes} {parts : List Schema} {s : Schema} {v : Json} (hs : s ∈ parts)
    (h : Admits r s v) :
    Admits r (.combined notes .anyOf parts) v
  /-- What all of the schemas admit. -/
  | allOf {notes : Notes} {parts : List Schema} {v : Json} (each : ∀ s ∈ parts, Admits r s v) :
    Admits r (.combined notes .allOf parts) v

/-- A schema admits a value by a derivation that follows none of some references, and no reference
twice, before it comes to an item or a property. -/
inductive AdmitsOff (r : RefScope) : List String → Schema → Json → Prop
  | ref {off : List String} {target : String} {s : Schema} {v : Json} (h : target ∉ off)
    (found : r.schemaAt target = .ok s) (rest : AdmitsOff r (target :: off) s v) :
    AdmitsOff r off (.ref target) v
  | string {off : List String} {notes : Notes} {choices : List (Option String)} {text : String}
    (h : choices ≠ [] → some text ∈ choices) :
    AdmitsOff r off (.string notes choices) (.str text)
  | primitive {off : List String} {notes : Notes} {type : Primitive} {v : Json}
    (h : v.hasType type.text = true) :
    AdmitsOff r off (.primitive notes type) v
  | array {off : List String} {notes : Notes} {items : Option Schema} {vs : List Json}
    (each : ∀ s, items = some s → ∀ v ∈ vs, AdmitsOff r [] s v) :
    AdmitsOff r off (.array notes items) (.arr vs)
  | object {off : List String} {notes : Notes} {properties : List (String × Schema)}
    {required : List String} {members : List (String × Json)}
    (each : ∀ p ∈ properties, ∀ v, (p.1, v) ∈ members → AdmitsOff r [] p.2 v)
    (all : ∀ name ∈ required, ∃ v, (name, v) ∈ members) :
    AdmitsOff r off (.object notes properties required) (.obj members)
  | anyOf {off : List String} {notes : Notes} {parts : List Schema} {s : Schema} {v : Json}
    (hs : s ∈ parts) (h : AdmitsOff r off s v) :
    AdmitsOff r off (.combined notes .anyOf parts) v
  | allOf {off : List String} {notes : Notes} {parts : List Schema} {v : Json}
    (each : ∀ s ∈ parts, AdmitsOff r off s v) :
    AdmitsOff r off (.combined notes .allOf parts) v

variable {r : RefScope} {off off' : List String} {target t : String} {s s' : Schema} {v : Json}

/-- A derivation that follows none of some references follows none of fewer. -/
theorem AdmitsOff.mono (h : r.AdmitsOff off s v) (hsub : off' ⊆ off) :
  r.AdmitsOff off' s v
  := by
  induction h generalizing off' with
  | ref ht found _ ih =>
      apply AdmitsOff.ref (fun hm => ht (hsub hm)) found
      apply ih (List.cons_subset_cons _ hsub)
  | string h => apply AdmitsOff.string h
  | primitive h => apply AdmitsOff.primitive h
  | array each _ => apply AdmitsOff.array each
  | object each all _ => apply AdmitsOff.object each all
  | anyOf hs _ ih => apply AdmitsOff.anyOf hs (ih hsub)
  | allOf _ ih =>
      apply AdmitsOff.allOf
      intro s hs
      apply ih s hs hsub

/-- A derivation follows a reference or does not.  If it does, there is one for the schema that the
reference stands for, which does not follow it again. -/
theorem AdmitsOff.cons_or (h : r.AdmitsOff off s v) (target : String) :
  r.AdmitsOff (target :: off) s v ∨
    ∃ s', r.schemaAt target = .ok s' ∧ r.AdmitsOff (target :: off) s' v
  := by
  induction h with
  | @ref off t s v ht found rest ih =>
      by_cases heq : t = target
      · subst heq
        right
        use s, found
      · obtain h | ⟨s', hs', h⟩ := ih
        · left
          apply AdmitsOff.ref _ found
          · apply h.mono (List.Perm.swap _ _ _).subset
          · rw [List.mem_cons, not_or]
            use heq, ht
        · right
          use s', hs'
          apply h.mono (List.cons_subset_cons _ (List.subset_cons_self _ _))
  | string h =>
      left
      apply AdmitsOff.string h
  | primitive h =>
      left
      apply AdmitsOff.primitive h
  | array each _ =>
      left
      apply AdmitsOff.array each
  | object each all _ =>
      left
      apply AdmitsOff.object each all
  | anyOf hs _ ih =>
      obtain h | h := ih
      · left
        apply AdmitsOff.anyOf hs h
      · right
        apply h
  | @allOf off notes parts v _ ih =>
      by_cases hall : ∀ s ∈ parts, r.AdmitsOff (target :: off) s v
      · left
        apply AdmitsOff.allOf hall
      · simp only [not_forall] at hall
        obtain ⟨s, hs, hn⟩ := hall
        right
        apply (ih s hs).resolve_left hn

/-- What is admitted is admitted by a derivation that follows no reference twice before it comes to
an item or a property. -/
theorem Admits.admitsOff (h : r.Admits s v) :
  r.AdmitsOff [] s v
  := by
  induction h with
  | @ref target s v found _ ih =>
      apply AdmitsOff.ref List.not_mem_nil found
      obtain h | ⟨s', hs', h⟩ := ih.cons_or target
      · apply h
      · rw [found] at hs'
        cases hs'
        apply h
  | string h => apply AdmitsOff.string h
  | primitive h => apply AdmitsOff.primitive h
  | array _ ih => apply AdmitsOff.array ih
  | object _ all ih => apply AdmitsOff.object ih all
  | anyOf hs _ ih => apply AdmitsOff.anyOf hs ih
  | allOf _ ih => apply AdmitsOff.allOf ih

/-- What is admitted by such a derivation is admitted. -/
theorem AdmitsOff.admits (h : r.AdmitsOff off s v) :
  r.Admits s v
  := by
  induction h with
  | ref _ found _ ih => apply Admits.ref found ih
  | string h => apply Admits.string h
  | primitive h => apply Admits.primitive h
  | array _ ih => apply Admits.array ih
  | object _ all ih => apply Admits.object ih all
  | anyOf hs _ ih => apply Admits.anyOf hs ih
  | allOf _ ih => apply Admits.allOf ih

end RefScope

/-! ### References beneath items and properties -/

namespace Schema

mutual

/-- The references in the items or properties of a schema, or of the parts of a combination. -/
def inner : Schema → List String
  | .array _ (some items) => items.refs
  | .object _ properties _ => refsTable properties
  | .combined _ _ parts => innerParts parts
  | .negated _ part => part.inner
  | .ref _ | .array _ none | .string .. | .primitive .. | .any _ => []

/-- The references in the items or properties of some schemas. -/
def innerParts : List Schema → List String
  | [] => []
  | s :: rest => s.inner ++ innerParts rest

end

mutual

/-- What is in items or properties of a schema is in the schema. -/
theorem inner_subset_refs (s : Schema) :
  s.inner ⊆ s.refs
  := by
  match s with
  | .array _ (some _) | .object .. => apply List.Subset.refl
  | .combined _ _ parts => apply innerParts_subset_refsList
  | .negated _ part => apply inner_subset_refs part
  | .ref _ | .array _ none | .string .. | .primitive .. | .any _ => apply List.nil_subset

/-- What is in items or properties of some schemas is in the schemas. -/
theorem innerParts_subset_refsList (parts : List Schema) :
  innerParts parts ⊆ refsList parts
  := by
  match parts with
  | [] => apply List.nil_subset
  | s :: rest =>
      apply List.append_subset.mpr
      constructor
      · apply List.Subset.trans (inner_subset_refs s) (List.subset_append_left _ _)
      · apply List.Subset.trans (innerParts_subset_refsList rest) (List.subset_append_right _ _)

end

end Schema

namespace RefScope

/-- A schema reaches a reference by way of an item or a property. -/
inductive Beneath (r : RefScope) : Schema → String → Prop
  /-- The reference is in an item or a property. -/
  | here {s : Schema} {target : String} (h : target ∈ s.inner) :
    Beneath r s target
  /-- It is reached by a schema that an item or a property refers to. -/
  | inside {s s' : Schema} {next target : String} (h : next ∈ s.inner)
    (found : r.schemaAt next = .ok s') (rest : r.Reaches s' target) :
    Beneath r s target
  /-- It is beneath a schema that the schema refers to. -/
  | through {s s' : Schema} {next target : String} (h : next ∈ s.refs)
    (found : r.schemaAt next = .ok s') (rest : Beneath r s' target) :
    Beneath r s target

/-- A reference admits objects only. -/
def HoldsObjects (r : RefScope) (target : String) : Prop :=
  ∀ v, r.Admits (.ref target) v → ∃ members, v = .obj members

/-- If a reference is beneath the schema that it stands for, it admits objects only. -/
def Safe (r : RefScope) (target : String) : Prop :=
  ∀ s, r.schemaAt target = .ok s → r.Beneath s target → r.HoldsObjects target

/-- What a schema reaches inside of a chain of references admits objects only, or has not been
followed again by a derivation that comes to the schema without an item or a property between. -/
def Guarded (r : RefScope) (chain off : List String) (s : Schema) : Prop :=
  ∀ u ∈ chain, r.Reaches s u →
    r.HoldsObjects u ∨
      u ∈ off ∧ ∀ s', r.schemaAt u = .ok s' → ∀ t, r.Beneath s t → r.Beneath s' t

variable {r : RefScope} {chain off : List String} {target t : String} {s s' : Schema} {v j : Json}

/-- What is beneath a reference in a schema is beneath the schema. -/
theorem Beneath.of_mem (h : r.Beneath (.ref target) t) (ht : target ∈ s.refs) :
  r.Beneath s t
  := by
  cases h with
  | here h => cases h
  | inside h => cases h
  | through h found rest =>
      cases List.mem_singleton.mp h
      apply Beneath.through ht found rest

/-- What a reference in an item or a property reaches is beneath the schema. -/
theorem Beneath.of_mem_inner (h : r.Reaches (.ref target) t) (ht : target ∈ s.inner) :
  r.Beneath s t
  := by
  cases h with
  | here h =>
      cases List.mem_singleton.mp h
      apply Beneath.here ht
  | through h found rest =>
      cases List.mem_singleton.mp h
      apply Beneath.inside ht found rest

/-- The references in a schema are guarded as the schema is. -/
theorem Guarded.ref (h : r.Guarded chain off s) (ht : target ∈ s.refs) :
  r.Guarded chain off (.ref target)
  := by
  intro u hu hr
  obtain hobjects | ⟨hoff, hbeneath⟩ := h u hu (hr.of_mem ht)
  · left
    apply hobjects
  · right
    use hoff
    intro s' hs' t hb
    apply hbeneath s' hs' t (hb.of_mem ht)

/-- The references in items or properties are guarded without any that are not followed. -/
theorem Guarded.ref_inner (h : r.Guarded chain off s) (hsafe : ∀ u ∈ chain, r.Safe u)
    (ht : target ∈ s.inner) :
  r.Guarded chain [] (.ref target)
  := by
  intro u hu hr
  left
  obtain hobjects | ⟨-, hbeneath⟩ := h u hu (hr.of_mem (s.inner_subset_refs ht))
  · apply hobjects
  · intro v hv
    cases hv with
    | ref found hv =>
        have hb := hbeneath _ found u (Beneath.of_mem_inner hr ht)
        apply hsafe u hu _ found hb _ (.ref found hv)

/-- The schema that a reference stands for is guarded with the reference on the chain. -/
theorem Guarded.schemaAt (h : r.Guarded chain off (.ref target))
    (hs : r.schemaAt target = .ok s) :
  r.Guarded (target :: chain) (target :: off) s
  := by
  have hmem : target ∈ (Schema.ref target).refs := List.mem_singleton_self target
  intro u hu hr
  obtain rfl | hu := List.mem_cons.mp hu
  · right
    use List.mem_cons_self
    intro s' hs' t hb
    rw [hs] at hs'
    cases hs'
    apply hb
  · obtain hobjects | ⟨hoff, hbeneath⟩ := h u hu (.through hmem hs hr)
    · left
      apply hobjects
    · right
      use List.mem_cons_of_mem _ hoff
      intro s' hs' t hb
      apply hbeneath s' hs' t (.through hmem hs hb)

end RefScope

/-! ### Rendered schemas -/

section

variable {given : List (String × Json)} {notes : Notes} {v : Json}

/-- A description and a default value do not restrict what is valid. -/
theorem validates_withNotes (h : ∀ m ∈ given, Json.memberHolds m v = true) :
  (Schema.withNotes notes given).validates v = true
  := by
  apply Json.validates_of_forall_mem
  intro m hm
  obtain hm | hm := List.mem_append.mp (Json.sortMembers_subset _ hm)
  · have hnote : m.1 = "description" ∨ m.1 = "default" := by
      obtain ⟨description | text, default | value⟩ := notes <;> grind [Json.optional]
    obtain hkey | hkey := hnote
    · rw [Json.memberHolds, hkey]
      rfl
    · rw [Json.memberHolds, hkey]
      rfl
  · apply h m hm

/-- What is of a type is valid if the other keywords hold of it. -/
theorem validates_typed {type : String} (htype : v.hasType type = true)
    (h : ∀ m ∈ given, Json.memberHolds m v = true) :
  (Schema.typed notes type given).validates v = true
  := by
  apply validates_withNotes
  rw [List.forall_mem_cons]
  constructor
  · apply htype
  · apply h

/-- A text out of a list is valid against the JSON schema of the list. -/
theorem validates_textSchema {choices : List (Option String)} {text : String}
    (h : choices ≠ [] → some text ∈ choices) :
  (Schema.textSchema notes choices).validates (.str text) = true
  := by
  apply validates_typed rfl
  split_ifs with hc
  · apply List.forall_mem_nil
  · rw [List.forall_mem_singleton]
    apply List.any_eq_true.mpr
    use .str text
    constructor
    · apply List.mem_filterMap.mpr
      use some text, h (mt List.isEmpty_iff.mpr hc)
      rfl
    · simp [Json.isSame]

/-- An object is valid against the JSON schema of objects if the members with the names of
properties are valid, and all that are required are there. -/
theorem validates_objectSchema {properties members : List (String × Json)} {required : List String}
    (each : ∀ p ∈ properties, ∀ w, (p.1, w) ∈ members → p.2.validates w = true)
    (all : ∀ name ∈ required, ∃ w, (name, w) ∈ members) :
  (Schema.objectSchema notes properties required).validates (.obj members) = true
  := by
  apply validates_typed rfl
  rw [List.forall_mem_append]
  constructor
  · split_ifs
    · apply List.forall_mem_nil
    · rw [List.forall_mem_singleton]
      apply Json.membersHold_of_forall_mem
      intro p hp
      apply each p (Json.sortMembers_subset _ hp)
  · rw [Schema.listMember]
    split_ifs
    · apply List.forall_mem_nil
    · rw [List.forall_mem_singleton]
      apply List.all_eq_true.mpr
      intro k hk
      obtain ⟨name, hname, rfl⟩ := List.mem_map.mp hk
      obtain ⟨w, hw⟩ := all name hname
      apply List.any_eq_true.mpr
      use (name, w), hw
      simp [Json.text?]

end

section

variable {r : RefScope} {f : String → Except RefError Json}

/-- What a reference admits is valid against what is put in its place. -/
def Replaces (r : RefScope) (f : String → Except RefError Json) (off : List String)
    (target : String) : Prop :=
  ∀ j, f target = .ok j → ∀ v, r.AdmitsOff off (.ref target) v → j.validates v = true

mutual

/-- What a schema admits is valid against the JSON schema that it is rendered to, if this is so for
its references, and without any that are not followed for those in items and properties. -/
theorem validates_render {s : Schema} {off : List String} {j v : Json}
    (here : ∀ t ∈ s.refs, Replaces r f off t) (inner : ∀ t ∈ s.inner, Replaces r f [] t)
    (h : s.render f = .ok j) (hv : r.AdmitsOff off s v) :
  j.validates v = true
  := by
  match s with
  | .ref target => apply here target List.mem_cons_self j h v hv
  | .string notes choices =>
      cases h
      cases hv with
      | string hv => apply validates_textSchema hv
  | .primitive notes type =>
      cases h
      cases hv with
      | primitive hv => apply validates_typed hv (List.forall_mem_nil _)
  | .array notes none =>
      cases h
      cases hv with
      | array _ => apply validates_typed rfl (List.forall_mem_nil _)
  | .array notes (some items) =>
      obtain ⟨w, hw, h⟩ := bind_eq_ok_iff.mp h
      cases h
      cases hv with
      | array each =>
          apply validates_typed rfl
          rw [List.forall_mem_singleton]
          apply List.all_eq_true.mpr
          intro v hv
          have hinner : ∀ t ∈ items.inner, Replaces r f [] t := by
            intro t ht
            apply inner t (items.inner_subset_refs ht)
          apply validates_render (s := items) inner hinner hw (each items rfl v hv)
  | .object notes properties required =>
      obtain ⟨members, hmembers, h⟩ := bind_eq_ok_iff.mp h
      cases h
      have hrendered := validates_renderTable inner hmembers
      cases hv with
      | object each all =>
          apply validates_objectSchema _ all
          intro m hm v hv
          obtain ⟨p, hp, hname, hvalid⟩ := exists_left_of_mem hrendered hm
          rw [← hname] at hv
          apply hvalid v (each p hp v hv)
  | .combined notes how parts =>
      obtain ⟨js, hjs, h⟩ := bind_eq_ok_iff.mp h
      cases h
      have hrendered := validates_renderList here inner hjs
      cases hv with
      | anyOf hs hv =>
          apply validates_withNotes
          rw [List.forall_mem_singleton]
          change (Json.verdictsOfParts js v).any id = true
          obtain ⟨j, hj, hvalid⟩ := exists_right_of_mem hrendered hs
          rw [Json.verdictsOfParts_eq_map, List.any_map, List.any_eq_true]
          use j, hj, hvalid v hv
      | allOf each =>
          apply validates_withNotes
          rw [List.forall_mem_singleton]
          change (Json.verdictsOfParts js v).all id = true
          rw [Json.verdictsOfParts_eq_map, List.all_map, List.all_eq_true]
          intro j hj
          obtain ⟨s, hs, hvalid⟩ := exists_left_of_mem hrendered hj
          apply hvalid v (each s hs)
  | .negated notes part => cases hv
  | .any notes => cases hv

/-- What schemas of a list admit is valid against the JSON schemas that they are rendered to. -/
theorem validates_renderList {parts : List Schema} {off : List String} {js : List Json}
    (here : ∀ t ∈ Schema.refsList parts, Replaces r f off t)
    (inner : ∀ t ∈ Schema.innerParts parts, Replaces r f [] t)
    (h : Schema.renderList f parts = .ok js) :
  List.Forall₂ (fun s j => ∀ v, r.AdmitsOff off s v → j.validates v = true) parts js
  := by
  match parts with
  | [] =>
      cases h
      apply List.Forall₂.nil
  | s :: rest =>
      obtain ⟨hs, hrest⟩ := List.forall_mem_append.mp here
      obtain ⟨hinner, hinnerRest⟩ := List.forall_mem_append.mp inner
      obtain ⟨j, hj, h⟩ := bind_eq_ok_iff.mp h
      obtain ⟨js, hjs, h⟩ := bind_eq_ok_iff.mp h
      cases h
      apply List.Forall₂.cons
      · intro v hv
        apply validates_render hs hinner hj hv
      · apply validates_renderList hrest hinnerRest hjs

/-- What schemas of a table admit is valid against the JSON schemas that they are rendered to. -/
theorem validates_renderTable {parts : List (String × Schema)} {members : List (String × Json)}
    (here : ∀ t ∈ Schema.refsTable parts, Replaces r f [] t)
    (h : Schema.renderTable f parts = .ok members) :
  List.Forall₂ (fun p m => p.1 = m.1 ∧ ∀ v, r.AdmitsOff [] p.2 v → m.2.validates v = true)
    parts members
  := by
  match parts with
  | [] =>
      cases h
      apply List.Forall₂.nil
  | (name, s) :: rest =>
      obtain ⟨hs, hrest⟩ := List.forall_mem_append.mp here
      obtain ⟨j, hj, h⟩ := bind_eq_ok_iff.mp h
      obtain ⟨ws, hws, h⟩ := bind_eq_ok_iff.mp h
      cases h
      have hinner : ∀ t ∈ s.inner, Replaces r f [] t := by
        intro t ht
        apply hs t (s.inner_subset_refs ht)
      apply List.Forall₂.cons
      · use rfl
        intro v hv
        apply validates_render hs hinner hj hv
      · apply validates_renderTable hrest hws

end

end

/-! ### Inlined schemas -/

namespace RefScope

variable {r : RefScope} {chain off : List String} {target : String} {s : Schema} {v j : Json}

/-- A schema is inlined if all references that it reaches stand for schemas. -/
theorem exists_inline (chain : List String)
    (closed : ∀ t, r.Reaches s t → ∃ s', r.schemaAt t = .ok s') :
  ∃ j, (r.inline s).startingAt chain = .ok j
  := by
  revert closed
  apply r.schema_induction (P := fun chain s =>
    (∀ t, r.Reaches s t → ∃ s', r.schemaAt t = .ok s') → ∃ j, (r.inline s).startingAt chain = .ok j)
  intro chain s ih closed
  rw [exists_eq_ok_iff]
  intro e he
  obtain ⟨t, ht, hreplaced⟩ := (inline_eq_error_iff_refs.mp he).exists_mem
  rw [replaced] at hreplaced
  split_ifs at hreplaced with hc
  obtain ⟨s', hs'⟩ := closed t (.here ht)
  obtain ⟨j, hj⟩ := ih t ht hc s' hs' fun u hu => closed u (.through ht hs' hu)
  rw [hs'] at hreplaced
  cases hj.symm.trans hreplaced

/-- What a guarded schema admits is valid against the JSON schema that it is inlined to. -/
theorem validates_startingAt (hreach : ∀ t, r.Reaches s t → r.Safe t)
    (hchain : ∀ t ∈ chain, r.Safe t) (guarded : r.Guarded chain off s)
    (h : (r.inline s).startingAt chain = .ok j) (hv : r.AdmitsOff off s v) :
  j.validates v = true
  := by
  revert off j v
  revert hreach hchain
  apply r.schema_induction (P := fun chain s => (∀ t, r.Reaches s t → r.Safe t) →
    (∀ t ∈ chain, r.Safe t) → ∀ {off v j}, r.Guarded chain off s →
      (r.inline s).startingAt chain = .ok j → r.AdmitsOff off s v → j.validates v = true)
  intro chain s ih hreach hchain off v j guarded h hv
  -- a reference on the chain is any object, and any other one is replaced inside of itself
  have replaces {off : List String} {t : String} (ht : t ∈ s.refs)
      (guarded : r.Guarded chain off (.ref t)) : Replaces r (r.replaced chain) off t := by
    intro j hj v hv
    rw [replaced] at hj
    split_ifs at hj with hc
    · cases hj
      obtain hobjects | ⟨hoff, -⟩ := guarded t hc (.here (List.mem_singleton_self t))
      · obtain ⟨members, rfl⟩ := hobjects v hv.admits
        rfl
      · cases hv with
        | ref hn => cases hn hoff
    · obtain ⟨s', hs', hj⟩ := bind_eq_ok_iff.mp hj
      cases hv with
      | ref _ found hv =>
          rw [hs'] at found
          cases found
          apply ih t ht hc s' hs' _ _ (guarded.schemaAt hs') hj hv
          · intro u hu
            apply hreach u (.through ht hs' hu)
          · rw [List.forall_mem_cons]
            use hreach t (.here ht), hchain
  rw [startingAt_inline] at h
  apply validates_render _ _ h hv
  · intro t ht
    apply replaces ht (guarded.ref ht)
  · intro t ht
    apply replaces (s.inner_subset_refs ht) (guarded.ref_inner hchain ht)

/-- Let every reference that a schema reaches stand for a schema, and admit objects only if it is
met again beneath an item or a property of this schema.  Then the schema is inlined, and what it
admits is valid against the JSON schema that comes of it. -/
theorem validates_inline (closed : ∀ t, r.Reaches s t → ∃ s', r.schemaAt t = .ok s')
    (safe : ∀ t s', r.Reaches s t → r.schemaAt t = .ok s' → r.Beneath s' t →
      ∀ v, r.Admits (.ref t) v → ∃ members, v = .obj members) :
  ∃ j, (r.inline s).startingAt [] = .ok j ∧ ∀ v, r.Admits s v → j.validates v = true
  := by
  obtain ⟨j, hj⟩ := exists_inline [] closed
  use j, hj
  intro v hv
  apply validates_startingAt _ _ _ hj hv.admitsOff
  · intro t ht s' hs' hb
    apply safe t s' ht hs' hb
  · apply List.forall_mem_nil
  · apply List.forall_mem_nil

/-- If the schema that a reference stands for refers to nothing else, the reference reaches nothing
else. -/
theorem Reaches.eq_of_refs {t : String} (h : r.Reaches (.ref target) t)
    (hs : r.schemaAt target = .ok s) (hrefs : s.refs ⊆ [target]) :
  t = target
  := by
  apply List.mem_singleton.mp (h.mem (List.Subset.refl _) _)
  intro t ht s' hs'
  cases List.mem_singleton.mp ht
  rw [hs] at hs'
  cases hs'
  apply hrefs

/-- A document with the schema of the nodes of a list, each of which has a text and may have another
node behind it. -/
def nodeScope : RefScope where
  root := .obj
    [("Node", .obj
      [("properties", .obj
        [("next", .obj [("$ref", .str "#/Node")]), ("text", .obj [("type", .str "string")])]),
       ("required", .arr [.str "text"]), ("type", .str "object")])]

/-- The schema of nodes. -/
theorem schemaAt_node :
  nodeScope.schemaAt "#/Node" =
    .ok (.object ⟨none, none⟩ [("next", .ref "#/Node"), ("text", .string ⟨none, none⟩ [])] ["text"])
  := by
  rfl

/-- Nodes are admitted that have a text, and another node behind them or none. -/
theorem admits_node {members : List (String × Json)}
    (next : ∀ v, ("next", v) ∈ members → nodeScope.Admits (.ref "#/Node") v)
    (text : ∀ v, ("text", v) ∈ members → ∃ text, v = .str text) (h : ∃ v, ("text", v) ∈ members) :
  nodeScope.Admits (.ref "#/Node") (.obj members)
  := by
  apply Admits.ref schemaAt_node
  apply Admits.object
  · rw [List.forall_mem_cons, List.forall_mem_singleton]
    use next
    intro v hv
    obtain ⟨text, rfl⟩ := text v hv
    apply Admits.string
    intro hne
    cases hne rfl
  · rw [List.forall_mem_singleton]
    apply h

/-- A list of two nodes is valid against the JSON schema of nodes. -/
theorem validates_nodes :
  ∃ j, (nodeScope.inline (.ref "#/Node")).startingAt [] = .ok j ∧
    j.validates (.obj [("next", .obj [("text", .str "b")]), ("text", .str "a")]) = true
  := by
  have hreach {t : String} (h : nodeScope.Reaches (.ref "#/Node") t) : t = "#/Node" :=
    h.eq_of_refs schemaAt_node (List.Subset.refl _)
  obtain ⟨j, hj, hvalid⟩ := @validates_inline nodeScope (.ref "#/Node")
    (by
      intro t ht
      cases hreach ht
      exact ⟨_, schemaAt_node⟩)
    (by
      intro t s ht _ _ v hv
      cases hreach ht
      cases hv with
      | ref found hv =>
          rw [schemaAt_node] at found
          cases found
          cases hv with
          | object => exact ⟨_, rfl⟩)
  use j, hj
  apply hvalid
  apply admits_node
  · intro v hv
    obtain rfl : v = .obj [("text", .str "b")] := by simpa using hv
    apply admits_node
    · simp
    · simp
    · simp
  · simp
  · simp

/-- The text of a document with a schema of arrays whose items have this schema again. -/
def nestText : List Char :=
  ["\x7bopenapi: '3.', info: \x7btitle: T, version: v\x7d, ",
   "paths: \x7b/a: \x7bget: \x7bresponses: \x7b\x7d, ",
   "parameters: [\x7bname: q, in: query, ",
   "schema: \x7b$ref: '#/x-n'\x7d\x7d]\x7d\x7d\x7d, ",
   "x-n: \x7btype: array, items: \x7b$ref: '#/x-n'\x7d\x7d\x7d"].flatMap
    String.toList

/-- An array that holds an empty one. -/
def nest : Json := .arr [.arr []]

/-- The reference to the schema of the items of arrays. -/
def itemsTarget? : Except RefError Schema → Option String
  | .ok (.array _ (some (.ref target))) => some target
  | _ => none

/-- The reference to the schema of items, whether an array in an array is valid against the JSON
schema that is inlined, and the schemas of arguments. -/
def nestFacts (d : Document) (tools : List Tool) :
    Option String × Except RefError Bool × List (List String) :=
  (itemsTarget? (schemaAt ⟨d.root⟩ "#/x-n"),
    ((inline ⟨d.root⟩ (.ref "#/x-n")).startingAt []).map fun j => j.validates nest,
    tools.map fun t => t.args.map fun a => a.schema.compact)

set_option maxRecDepth 10000 in
/-- The items have the schema itself, and an array in an array is not valid. -/
theorem facts_of_nestText :
  (readText nestText >>= fun d =>
    (convertDocument .standard .byConvention d "").map fun c => nestFacts d c.tools) =
    .ok (some "#/x-n", .ok false,
      [["\x7b\"items\":\x7b\"type\":\"object\"\x7d,\"type\":\"array\"\x7d"]])
  := by
  decide +kernel

/-- A schema of arrays of itself admits an array in an array, which is not valid against the JSON
schema that it is inlined to. -/
theorem refuses_nest :
  ∃ d j, readDocument (Text.utf8 (String.ofList nestText)) = .ok d ∧
    (∀ t, Reaches ⟨d.root⟩ (.ref "#/x-n") t → ∃ s, schemaAt ⟨d.root⟩ t = .ok s) ∧
    (inline ⟨d.root⟩ (.ref "#/x-n")).startingAt [] = .ok j ∧
    Admits ⟨d.root⟩ (.ref "#/x-n") nest ∧ j.validates nest = false
  := by
  have hfirst : nestText.head? = some '\x7b' := by decide +kernel
  obtain ⟨d, c, hd, -, heq⟩ := exists_of_readText hfirst (by decide) facts_of_nestText
  obtain ⟨hitems, hrest⟩ := Prod.mk.inj heq
  obtain ⟨hinline, -⟩ := Prod.mk.inj hrest
  obtain ⟨j, hj, hinvalid⟩ := map_eq_ok_iff.mp hinline
  obtain ⟨notes, hs⟩ : ∃ notes,
      schemaAt ⟨d.root⟩ "#/x-n" = .ok (.array notes (some (.ref "#/x-n"))) := by
    rw [itemsTarget?.eq_def] at hitems
    split at hitems
    · rename_i notes target h
      cases hitems
      use notes, h
    · cases hitems
  have harray {vs : List Json} (each : ∀ v ∈ vs, Admits ⟨d.root⟩ (.ref "#/x-n") v) :
      Admits ⟨d.root⟩ (.ref "#/x-n") (.arr vs) := by
    apply Admits.ref hs
    apply Admits.array
    rintro _ ⟨⟩
    apply each
  refine ⟨d, j, hd, ?_, hj, ?_, hinvalid⟩
  · intro t ht
    cases ht.eq_of_refs hs (List.Subset.refl _)
    exact ⟨_, hs⟩
  · apply harray
    rw [List.forall_mem_singleton]
    apply harray
    apply List.forall_mem_nil

end RefScope

end OpenApi

end ApiIntake
