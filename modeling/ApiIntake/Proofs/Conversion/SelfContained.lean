import ApiIntake.Proofs.Conversion.Offers
import ApiIntake.Proofs.Conversion.Reading
import ApiIntake.Proofs.Tool.Arguments
import ApiIntake.Proofs.Tool.Ending

/-!
# Schemas that stand for themselves

The JSON schemas of the arguments of a tool belong to a small grammar: a description, a default
value, and the keywords of one form, whose parts belong to the grammar again (`SelfContained`).
The grammar has no references, and so there is none in any place of a converted document where
a schema stands, whatever references the document has (`schemas_of_convert`).  A default value
or a property may have the name of a reference, and is none.
-/

namespace ApiIntake

open ApiIntake.OpenApi

/-! ### The grammar -/

/-- A member of a JSON schema that is no keyword: its description or its default value. -/
def isNote (m : String × Json) : Bool := m.1 = "description" || m.1 = "default"

/-- Members are keywords, perhaps with a description, which is a text, and a default value. -/
structure Annotates (members keywords : List (String × Json)) : Prop where
  /-- No key occurs twice. -/
  ascending : Json.Ascending members
  /-- A description is a text. -/
  description : ∀ v, ("description", v) ∈ members → ∃ text, v = .str text
  /-- The others are the keywords. -/
  keywords : (members.filter fun m => !isNote m) = keywords

/-- The keywords of a JSON schema whose parts are good. -/
inductive Keywords (good : Json → Prop) : List (String × Json) → Prop
  /-- A text. -/
  | string :
    Keywords good [("type", .str "string")]
  /-- A text out of a list. -/
  | choice {texts : List String} :
    Keywords good [("enum", .arr (texts.map .str)), ("type", .str "string")]
  /-- A number, a whole number or a truth value. -/
  | primitive {type : String} (h : type ∈ ["number", "integer", "boolean"]) :
    Keywords good [("type", .str type)]
  /-- An array. -/
  | array :
    Keywords good [("type", .str "array")]
  /-- An array of items of one schema. -/
  | items {items : Json} (h : good items) :
    Keywords good [("items", items), ("type", .str "array")]
  /-- An object.  There is no empty table of properties, and no empty list of those that are
  required. -/
  | object {properties : List (String × Json)} {required : List String}
    (ascending : Json.Ascending properties) (each : ∀ p ∈ properties, good p.2) :
    Keywords good
      ((if properties = [] then [] else [("properties", .obj properties)]) ++
        (if required = [] then [] else [("required", .arr (required.map .str))]) ++
        [("type", .str "object")])
  /-- A combination of schemas. -/
  | combined {key : String} {parts : List Json} (h : key ∈ ["oneOf", "anyOf", "allOf"])
    (each : ∀ s ∈ parts, good s) :
    Keywords good [(key, .arr parts)]
  /-- What a schema does not admit. -/
  | negated {part : Json} (h : good part) :
    Keywords good [("not", part)]

/-- A JSON schema without references. -/
inductive SelfContained : Json → Prop
  /-- Its parts are without references as well. -/
  | intro {members keywords : List (String × Json)} (annotates : Annotates members keywords)
    (h : Keywords SelfContained keywords) :
    SelfContained (.obj members)

/-- The JSON schema of an object that holds arguments: all of its properties have schemas
without references.  There may be no properties, but no empty list of those that are required. -/
inductive IsInputSchema : Json → Prop
  /-- It has no notes and no other keywords. -/
  | intro {properties : List (String × Json)} {required : List String}
    (ascending : Json.Ascending properties) (each : ∀ p ∈ properties, SelfContained p.2) :
    IsInputSchema
      (.obj (("properties", .obj properties) ::
        (if required = [] then [] else [("required", .arr (required.map .str))]) ++
        [("type", .str "object")]))

/-- The keys of the keywords of each form. -/
def keywordForms : List (List String) :=
  [["type"], ["enum", "type"], ["items", "type"], ["properties", "type"], ["required", "type"],
   ["properties", "required", "type"], ["oneOf"], ["anyOf"], ["allOf"], ["not"]]

section

variable {good : Json → Prop} {members members' keywords : List (String × Json)}
  {m : String × Json} {v : Json}

namespace Keywords

/-- Keywords have the keys of one form. -/
theorem keys_mem (h : Keywords good keywords) :
  keywords.map Prod.fst ∈ keywordForms
  := by
  cases h with
  | object =>
      split_ifs
      all_goals simp [keywordForms]
  | combined h =>
      simp only [List.mem_cons, List.not_mem_nil, or_false] at h
      obtain rfl | rfl | rfl := h
      all_goals simp [keywordForms]
  | string | choice | primitive | array | items | negated => simp [keywordForms]

/-- Keywords ascend by key. -/
theorem ascending (h : Keywords good keywords) :
  Json.Ascending keywords
  := by
  have hforms : ∀ keys ∈ keywordForms, keys.Pairwise (· < ·) := by decide
  apply List.pairwise_map.mp (hforms _ h.keys_mem)

/-- No keyword is a note or a reference. -/
theorem key_ne (h : Keywords good keywords) (hm : m ∈ keywords) :
  m.1 ≠ "description" ∧ m.1 ≠ "default" ∧ m.1 ≠ "$ref"
  := by
  have hforms : ∀ keys ∈ keywordForms, ∀ key ∈ keys,
      key ≠ "description" ∧ key ≠ "default" ∧ key ≠ "$ref" := by decide
  apply hforms _ h.keys_mem _ (List.mem_map_of_mem hm)

/-- No keyword is a note. -/
theorem isNote_eq (h : Keywords good keywords) (hm : m ∈ keywords) :
  isNote m = false
  := by
  obtain ⟨hdescription, hdefault, -⟩ := h.key_ne hm
  simp [isNote, hdescription, hdefault]

end Keywords

/-! ### Notes beside keywords -/

/-- Sorted members are keywords with notes, if the others among them are the keywords. -/
theorem annotates_sortMembers (h : Keywords good keywords) (hkeys : (members.map Prod.fst).Nodup)
    (hdescription : ∀ v, ("description", v) ∈ members → ∃ text, v = .str text)
    (hm : ∀ m, m ∈ members ∧ isNote m = false ↔ m ∈ keywords) :
  Annotates (Json.sortMembers members) keywords
  := by
  have hascending := Json.ascending_sortMembers members
  constructor
  case ascending => apply hascending
  case description =>
    intro v hv
    apply hdescription v (Json.sortMembers_subset _ hv)
  case keywords =>
    apply Json.Ascending.eq_of_mem_iff (hascending.filter _) h.ascending
    intro m
    rw [List.mem_filter, Json.mem_sortMembers_iff hkeys, ← hm, Bool.not_eq_true']

/-- A description and a default value as members. -/
def notesMembers (notes : Notes) : List (String × Json) :=
  Json.optional "description" (notes.description.map .str) ++ Json.optional "default" notes.default

/-- They are notes. -/
theorem isNote_of_mem {notes : Notes} (hm : m ∈ notesMembers notes) :
  isNote m = true
  := by
  obtain ⟨description | text, default | value⟩ := notes
  · cases hm
  · obtain rfl := List.mem_singleton.mp hm
    rfl
  · obtain rfl := List.mem_singleton.mp hm
    rfl
  · obtain rfl | hm := List.mem_cons.mp hm
    · rfl
    · obtain rfl := List.mem_singleton.mp hm
      rfl

/-- They have different keys. -/
theorem nodup_notesMembers (notes : Notes) :
  ((notesMembers notes).map Prod.fst).Nodup
  := by
  obtain ⟨description | text, default | value⟩ := notes
  · apply List.nodup_nil
  · apply List.nodup_singleton
  · apply List.nodup_singleton
  · simp [notesMembers, Json.optional]

/-- The description is a text. -/
theorem text_of_mem_notesMembers {notes : Notes} (h : ("description", v) ∈ notesMembers notes) :
  ∃ text, v = .str text
  := by
  obtain hm | hm := List.mem_append.mp h
  · cases hd : notes.description with
    | none =>
        rw [hd] at hm
        cases hm
    | some text =>
        rw [hd] at hm
        cases List.mem_singleton.mp hm
        use text
  · cases hd : notes.default with
    | none =>
        rw [hd] at hm
        cases hm
    | some value =>
        simp [hd, Json.optional] at hm

/-- A schema with notes is one of its keywords, in whatever order they are given. -/
theorem selfContained_withNotes {given : List (String × Json)} (notes : Notes)
    (h : Keywords SelfContained keywords) (hperm : given.Perm keywords) :
  SelfContained (Schema.withNotes notes given)
  := by
  have hnote : ∀ m ∈ given, isNote m = false := by
    intro m hm
    apply h.isNote_eq (hperm.mem_iff.mp hm)
  apply SelfContained.intro _ h
  apply annotates_sortMembers h
  · rw [← notesMembers, List.map_append, List.nodup_append']
    use nodup_notesMembers notes, (hperm.map _).nodup_iff.mpr h.ascending.nodup
    intro key hkey hgiven
    obtain ⟨m, hm, rfl⟩ := List.mem_map.mp hkey
    obtain ⟨m', hm', heq⟩ := List.mem_map.mp hgiven
    have hn := isNote_of_mem hm
    rw [isNote, ← heq, ← isNote, hnote m' hm'] at hn
    cases hn
  · intro v hv
    obtain hm | hm := List.mem_append.mp hv
    · apply text_of_mem_notesMembers hm
    · cases hnote _ hm
  · intro m
    rw [← notesMembers, List.mem_append, hperm.mem_iff]
    constructor
    · rintro ⟨hm | hm, hn⟩
      · rw [isNote_of_mem hm] at hn
        cases hn
      · apply hm
    · intro hm
      exact ⟨.inr hm, h.isNote_eq hm⟩

/-- A schema with a type is one of the type and its other keywords. -/
theorem selfContained_typed {type : String} (notes : Notes)
    (h : Keywords SelfContained (keywords ++ [("type", .str type)])) :
  SelfContained (Schema.typed notes type keywords)
  := by
  apply selfContained_withNotes notes h
  apply (List.perm_append_singleton _ _).symm

/-- A schema without references has none either with another description. -/
theorem selfContained_describe (description : Option String) (h : SelfContained v) :
  SelfContained (describe description v)
  := by
  cases description with
  | none =>
      rw [describe.eq_def]
      cases h with
      | intro annotates h => apply SelfContained.intro annotates h
  | some text =>
      cases h with
      | @intro members keywords annotates h =>
          rw [describe]
          split_ifs
          · apply SelfContained.intro annotates h
          · apply SelfContained.intro _ h
            have hmem (m : String × Json) :
                m ∈ Json.insertMember "description" (.str text) members ↔
                  m = ("description", .str text) ∨ m ∈ members ∧ m.1 ≠ "description" :=
              Json.mem_insertMember_iff annotates.ascending
            have hascending :
                Json.Ascending (Json.insertMember "description" (.str text) members) :=
              Json.ascending_insertMember _ _ annotates.ascending
            constructor
            case ascending => apply hascending
            case description =>
              intro v hv
              obtain heq | ⟨-, hne⟩ := (hmem _).mp hv
              · cases heq
                use text
              · cases hne rfl
            case keywords =>
              rw [← annotates.keywords]
              apply (hascending.filter _).eq_of_mem_iff (annotates.ascending.filter _)
              intro m
              rw [List.mem_filter, List.mem_filter, hmem]
              constructor
              · rintro ⟨rfl | ⟨hm, -⟩, hn⟩
                · cases hn
                · exact ⟨hm, hn⟩
              · rintro ⟨hm, hn⟩
                refine ⟨.inr ⟨hm, ?_⟩, hn⟩
                rintro hkey
                rw [isNote, hkey] at hn
                cases hn

end

/-! ### Rendered schemas -/

section

variable {f : String → Except RefError Json}

/-- The JSON schema of texts has no references. -/
theorem selfContained_textSchema (notes : Notes) (choices : List (Option String)) :
  SelfContained (Schema.textSchema notes choices)
  := by
  rw [Schema.textSchema]
  apply selfContained_typed
  split_ifs
  · apply Keywords.string
  · have htexts :
        (choices.filterMap fun c => c.map Json.str) = (choices.filterMap id).map .str := by
      rw [List.map_filterMap]
      rfl
    rw [htexts]
    apply Keywords.choice

/-- The JSON schema of an object has no references if those of its properties have none. -/
theorem selfContained_objectSchema (notes : Notes) {properties : List (String × Json)}
    (required : List String) (h : ∀ p ∈ properties, SelfContained p.2) :
  SelfContained (Schema.objectSchema notes properties required)
  := by
  rw [Schema.objectSchema]
  apply selfContained_typed
  have hsorted : ∀ p ∈ Json.sortMembers properties, SelfContained p.2 := by
    intro p hp
    apply h p (Json.sortMembers_subset _ hp)
  have hkeywords := @Keywords.object SelfContained _ required
    (Json.ascending_sortMembers properties) hsorted
  simpa only [Json.sortMembers_eq_nil_iff, Schema.listMember, List.isEmpty_iff,
    List.map_eq_nil_iff] using hkeywords

mutual

/-- A rendered schema has no references if what stands in the place of its references has
none. -/
theorem selfContained_render {s : Schema} {v : Json}
    (hf : ∀ target ∈ s.refs, ∀ v, f target = .ok v → SelfContained v) (h : s.render f = .ok v) :
  SelfContained v
  := by
  match s with
  | .ref target => apply hf target List.mem_cons_self v h
  | .string notes choices =>
      cases h
      apply selfContained_textSchema
  | .primitive notes type =>
      cases h
      apply selfContained_typed
      apply Keywords.primitive
      cases type <;> decide
  | .array notes none =>
      cases h
      apply selfContained_typed
      apply Keywords.array
  | .array notes (some items) =>
      obtain ⟨w, hw, h⟩ := bind_eq_ok_iff.mp h
      cases h
      apply selfContained_typed
      apply Keywords.items (selfContained_render (s := items) hf hw)
  | .object notes properties required =>
      obtain ⟨members, hmembers, h⟩ := bind_eq_ok_iff.mp h
      cases h
      apply selfContained_objectSchema
      apply selfContained_renderTable hf hmembers
  | .combined notes how parts =>
      obtain ⟨vs, hvs, h⟩ := bind_eq_ok_iff.mp h
      cases h
      have hkey : how.keyword ∈ ["oneOf", "anyOf", "allOf"] := by cases how <;> decide
      apply selfContained_withNotes notes _ (List.Perm.refl _)
      apply Keywords.combined hkey (selfContained_renderList hf hvs)
  | .negated notes part =>
      obtain ⟨w, hw, h⟩ := bind_eq_ok_iff.mp h
      cases h
      apply selfContained_withNotes notes _ (List.Perm.refl _)
      apply Keywords.negated (selfContained_render (s := part) hf hw)
  | .any notes =>
      cases h
      apply selfContained_objectSchema notes [] (List.forall_mem_nil _)

/-- Rendered schemas of a list have no references if what stands in the place of theirs has
none. -/
theorem selfContained_renderList {parts : List Schema} {vs : List Json}
    (hf : ∀ target ∈ Schema.refsList parts, ∀ v, f target = .ok v → SelfContained v)
    (h : Schema.renderList f parts = .ok vs) :
  ∀ v ∈ vs, SelfContained v
  := by
  match parts with
  | [] =>
      cases h
      apply List.forall_mem_nil
  | s :: rest =>
      obtain ⟨hs, hrest⟩ := List.forall_mem_append.mp hf
      obtain ⟨v, hv, h⟩ := bind_eq_ok_iff.mp h
      obtain ⟨ws, hws, h⟩ := bind_eq_ok_iff.mp h
      cases h
      rw [List.forall_mem_cons]
      use selfContained_render hs hv, selfContained_renderList hrest hws

/-- Rendered schemas of a table have no references if what stands in the place of theirs has
none. -/
theorem selfContained_renderTable {parts : List (String × Schema)} {members : List (String × Json)}
    (hf : ∀ target ∈ Schema.refsTable parts, ∀ v, f target = .ok v → SelfContained v)
    (h : Schema.renderTable f parts = .ok members) :
  ∀ m ∈ members, SelfContained m.2
  := by
  match parts with
  | [] =>
      cases h
      apply List.forall_mem_nil
  | (name, s) :: rest =>
      obtain ⟨hs, hrest⟩ := List.forall_mem_append.mp hf
      obtain ⟨v, hv, h⟩ := bind_eq_ok_iff.mp h
      obtain ⟨ws, hws, h⟩ := bind_eq_ok_iff.mp h
      cases h
      rw [List.forall_mem_cons]
      use selfContained_render hs hv, selfContained_renderTable hrest hws

end

end

/-- An inlined schema has no references. -/
theorem selfContained_inline {r : RefScope} {chain : List String} {s : Schema} {v : Json}
    (h : (r.inline s).startingAt chain = .ok v) :
  SelfContained v
  := by
  revert v
  apply r.schema_induction
    (P := fun chain s => ∀ {v}, (r.inline s).startingAt chain = .ok v → SelfContained v)
  intro chain s ih v h
  rw [RefScope.startingAt_inline] at h
  apply selfContained_render _ h
  intro target ht v hv
  split_ifs at hv with hc
  · cases hv
    apply selfContained_objectSchema ⟨none, none⟩ [] (List.forall_mem_nil _)
  · obtain ⟨s', hs', hv⟩ := bind_eq_ok_iff.mp hv
    apply ih target ht hc s' hs' hv

/-! ### Arguments of operations -/

section

variable {r : RefScope} {chain : List String} {body : RequestBody} {resolved : Schema}
  {args : List Argument} {a : Argument}

/-- The schema of what a parameter holds has no references. -/
theorem selfContained_of_hasSchema {format : ParameterFormat} {v : Json}
    (h : HasSchema r format v) :
  SelfContained v
  := by
  cases h with
  | schema h => apply selfContained_inline h
  | content => apply selfContained_textSchema ⟨none, none⟩ []

/-- The schema of the argument for a parameter has no references. -/
theorem OfParameter.selfContained {p : Parameter} (h : OfParameter r p a) :
  SelfContained a.schema
  := by
  obtain ⟨v, hv, hschema⟩ := h.schema
  rw [hschema]
  apply selfContained_describe
  apply selfContained_of_hasSchema hv

/-- The schemas of the arguments for a body have no references. -/
theorem OfBody.selfContained {x : Option (RefOr RequestBody)} (h : OfBody r x args) :
  ∀ a ∈ args, SelfContained a.schema
  := by
  cases h with
  | none => apply List.forall_mem_nil
  | unknown => apply List.forall_mem_nil
  | json _ _ _ content =>
      cases content with
      | object each =>
          intro a ha
          obtain ⟨property, -, hproperty⟩ := exists_left_of_mem each ha
          apply selfContained_inline hproperty.schema
      | whole _ all =>
          rw [List.forall_mem_singleton]
          apply selfContained_inline all.schema

/-- The schemas of the arguments of an operation have no references. -/
theorem selfContained_of_argumentsOfOperation {common : List (RefOr Parameter)} {op : Operation}
    (h : argumentsOfOperation r common op = .ok args) :
  ∀ a ∈ args, SelfContained a.schema
  := by
  obtain ⟨_, _, fromParameters, fromBody, -, -, hparameters, hbody, rfl, -⟩ :=
    exists_of_argumentsOfOperation h
  rw [List.forall_mem_append]
  constructor
  · intro a ha
    obtain ⟨p, -, hp⟩ := exists_left_of_mem hparameters ha
    apply hp.selfContained
  · apply hbody.selfContained

/-- The input schema for arguments whose schemas have no references has none either. -/
theorem isInputSchema_inputSchemaOf (h : ∀ a ∈ args, SelfContained a.schema) :
  IsInputSchema (inputSchemaOf args)
  := by
  have hrequired : ((args.filter (·.required)).map fun a => Json.str a.name) =
      ((args.filter (·.required)).map (·.name)).map .str := by
    rw [List.map_map]
    rfl
  have hproperties : ∀ p ∈ Json.sortMembers (args.map fun a => (a.name, a.schema)),
      SelfContained p.2 := by
    intro p hp
    obtain ⟨a, ha, rfl⟩ := List.mem_map.mp (Json.sortMembers_subset _ hp)
    apply h a ha
  rw [inputSchemaOf, hrequired]
  have hintro := @IsInputSchema.intro _ ((args.filter (·.required)).map (·.name))
    (Json.ascending_sortMembers _) hproperties
  simpa only [Schema.listMember, List.isEmpty_iff, List.map_eq_nil_iff] using hintro

end

/-! ### Converted documents -/

/-- A schema stands somewhere in another one: it is this schema, or stands in what the schema
has under a keyword for schemas. -/
inductive StandsIn (w : Json) : Json → Prop
  /-- It is the schema. -/
  | itself :
    StandsIn w w
  /-- It stands in the one schema under a keyword. -/
  | one {members : List (String × Json)} {key : String} {v : Json}
    (hkey : key ∈ ["items", "additionalProperties", "not"]) (h : (key, v) ∈ members)
    (rest : StandsIn w v) :
    StandsIn w (.obj members)
  /-- It stands in one of the schemas in a list. -/
  | listed {members : List (String × Json)} {key : String} {parts : List Json} {v : Json}
    (hkey : key ∈ ["oneOf", "anyOf", "allOf"]) (h : (key, .arr parts) ∈ members) (hv : v ∈ parts)
    (rest : StandsIn w v) :
    StandsIn w (.obj members)
  /-- It stands in the schema of a property. -/
  | property {members properties : List (String × Json)} {name : String} {v : Json}
    (h : ("properties", .obj properties) ∈ members) (hv : (name, v) ∈ properties)
    (rest : StandsIn w v) :
    StandsIn w (.obj members)

section

variable {good : Json → Prop} {v w : Json} {key name : String}
  {members keywords properties : List (String × Json)} {parts : List Json}

namespace Keywords

/-- The one schema under a keyword is good. -/
theorem of_one (h : Keywords good keywords) (hkey : key ∈ ["items", "additionalProperties", "not"])
    (hm : (key, v) ∈ keywords) :
  good v
  := by
  cases h with
  | items h | negated h => grind
  | string | choice | primitive | array | object | combined => grind

/-- The schemas in a list under a keyword are good. -/
theorem of_listed (h : Keywords good keywords) (hkey : key ∈ ["oneOf", "anyOf", "allOf"])
    (hm : (key, .arr parts) ∈ keywords) :
  ∀ v ∈ parts, good v
  := by
  cases h with
  | combined _ each => grind
  | string | choice | primitive | array | items | object | negated => grind

/-- The schemas of properties are good. -/
theorem of_properties (h : Keywords good keywords)
    (hm : ("properties", .obj properties) ∈ keywords) :
  ∀ p ∈ properties, good p.2
  := by
  cases h with
  | object _ each => grind
  | string | choice | primitive | array | items | combined | negated => grind

end Keywords

/-- A member that is no note is a keyword. -/
theorem Annotates.mem_keywords {m : String × Json} (h : Annotates members keywords)
    (hm : m ∈ members) (hn : isNote m = false) :
  m ∈ keywords
  := by
  rw [← h.keywords, List.mem_filter, hn]
  exact ⟨hm, rfl⟩

/-- What stands in a schema without references is one. -/
theorem SelfContained.of_standsIn (h : SelfContained v) (hw : StandsIn w v) :
  SelfContained w
  := by
  induction hw with
  | itself => apply h
  | @one members key v hkey hm _ ih =>
      cases h with
      | intro annotates h =>
          have hnote : ∀ key ∈ ["items", "additionalProperties", "not"],
              (key = "description" || key = "default") = false := by decide
          apply ih (h.of_one hkey (annotates.mem_keywords hm (hnote key hkey)))
  | @listed members key parts v hkey hm hv _ ih =>
      cases h with
      | intro annotates h =>
          have hnote : ∀ key ∈ ["oneOf", "anyOf", "allOf"],
              (key = "description" || key = "default") = false := by decide
          apply ih (h.of_listed hkey (annotates.mem_keywords hm (hnote key hkey)) v hv)
  | property hm hv _ ih =>
      cases h with
      | intro annotates h => apply ih (h.of_properties (annotates.mem_keywords hm rfl) _ hv)

/-- A schema without references is none. -/
theorem SelfContained.get?_ref (h : SelfContained v) :
  v.get? "$ref" = none
  := by
  cases h with
  | @intro members keywords annotates h =>
      rw [Json.get?, List.lookup_eq_none_iff]
      intro m hm
      cases hn : isNote m with
      | true =>
          rw [bne_iff_ne]
          rintro hkey
          rw [isNote, ← hkey] at hn
          cases hn
      | false =>
          rw [bne_iff_ne]
          apply (h.key_ne (annotates.mem_keywords hm hn)).2.2.symm

/-- What stands in an input schema is this schema or one without references. -/
theorem IsInputSchema.of_standsIn (h : IsInputSchema v) (hw : StandsIn w v) :
  w = v ∨ SelfContained w
  := by
  cases h with
  | @intro properties required _ each =>
      cases hw with
      | itself =>
          left
          rfl
      | one hkey hm => grind
      | listed hkey hm => grind
      | @property _ properties' _ _ hm hv rest =>
          have heq : properties' = properties := by grind
          right
          apply (each _ (heq ▸ hv)).of_standsIn rest

/-- An input schema is no reference. -/
theorem IsInputSchema.get?_ref (h : IsInputSchema v) :
  v.get? "$ref" = none
  := by
  cases h with
  | @intro properties required _ _ =>
      cases required with
      | nil => rfl
      | cons name rest => rfl

end

/-- The tools of a converted document have arguments whose schemas belong to the grammar without
references, and so do the schemas of the properties of their input schemas.  In no place where a
schema stands is there a reference. -/
theorem schemas_of_convert {s : Settings} {destination : Destination} {bytes : List UInt8}
    {c : ServerConfig} (h : convert s destination bytes = .ok c) :
  ∀ t ∈ c.tools,
    (∀ a ∈ t.args, SelfContained a.schema) ∧
    IsInputSchema t.inputSchema ∧
    ∀ v ∈ t.inputSchema :: t.args.map (·.schema), ∀ w, StandsIn w v →
      w.get? "$ref" = none
  := by
  obtain ⟨d, hd, h⟩ := bind_eq_ok_iff.mp h
  obtain ⟨drafts, hdrafts, rfl⟩ := of_convertDocument h
  intro t ht
  -- a tool differs from its draft in the name alone
  have hmap : (named [] drafts).map (fun t => (t.args, t.inputSchema)) =
      drafts.map fun t => (t.args, t.inputSchema) := map_named (fun t name => rfl) [] drafts
  have hmem : (t.args, t.inputSchema) ∈ drafts.map fun t => (t.args, t.inputSchema) := by
    rw [← hmap]
    apply List.mem_map_of_mem ht
  obtain ⟨draft, hdraft, heq⟩ := List.mem_map.mp hmem
  obtain ⟨hargs, hinput⟩ := Prod.mk.inj heq
  obtain ⟨o, -, ho⟩ := exists_left_of_mem hdrafts hdraft
  rw [Offer.draft, toolOf] at ho
  obtain ⟨args, hmade, ho⟩ := bind_eq_ok_iff.mp ho
  cases ho
  have hschemas := selfContained_of_argumentsOfOperation (mapError_eq_ok_iff.mp hmade)
  have hi := isInputSchema_inputSchemaOf hschemas
  rw [← hargs, ← hinput]
  use hschemas, hi
  rw [List.forall_mem_cons]
  constructor
  · intro w hw
    obtain rfl | hw := hi.of_standsIn hw
    · apply hi.get?_ref
    · apply hw.get?_ref
  · intro v hv w hw
    obtain ⟨a, ha, rfl⟩ := List.mem_map.mp hv
    apply ((hschemas a ha).of_standsIn hw).get?_ref

/-- The text of a document with a schema that refers to itself and has a default value and a
property with the name of a reference. -/
def decoyText : List Char :=
  ["\x7bopenapi: '3.', info: \x7btitle: T, version: v\x7d, ",
   "paths: \x7b/a: \x7bget: \x7bresponses: \x7b\x7d, ",
   "parameters: [\x7bname: q, in: query, ",
   "schema: \x7b$ref: '#/x-n'\x7d\x7d]\x7d\x7d\x7d, ",
   "x-n: \x7btype: object, default: \x7b$ref: x\x7d, ",
   "properties: \x7b$ref: \x7btype: string\x7d, ",
   "n: \x7b$ref: '#/x-n'\x7d\x7d\x7d\x7d"].flatMap
    String.toList

set_option maxRecDepth 10000 in
/-- The default value and the property are kept, and the schema in itself is any object. -/
theorem schemas_of_decoyText :
  (readText decoyText >>= fun d => (convertDocument .standard .byConvention d "").map fun c =>
    c.tools.map fun t => t.args.map fun a => a.schema.compact) =
    .ok [["\x7b\"default\":\x7b\"$ref\":\"x\"\x7d,\"properties\":" ++
      "\x7b\"$ref\":\x7b\"type\":\"string\"\x7d,\"n\":\x7b\"type\":\"object\"\x7d\x7d," ++
      "\"type\":\"object\"\x7d"]]
  := by
  decide +kernel

/-- The one tool for the document has an argument whose schema has no references. -/
theorem schemas_of_convert_decoys :
  ∃ c, convert .standard .byConvention (Text.utf8 (String.ofList decoyText)) = .ok c ∧
    (c.tools.map fun t => t.args.map fun a => a.schema.compact) =
      [["\x7b\"default\":\x7b\"$ref\":\"x\"\x7d,\"properties\":" ++
        "\x7b\"$ref\":\x7b\"type\":\"string\"\x7d,\"n\":\x7b\"type\":\"object\"\x7d\x7d," ++
        "\"type\":\"object\"\x7d"]] ∧
    ∀ t ∈ c.tools, ∀ a ∈ t.args, SelfContained a.schema ∧
      ∀ w, StandsIn w a.schema → w.get? "$ref" = none
  := by
  have hfirst : decoyText.head? = some '\x7b' := by decide +kernel
  obtain ⟨d, c, -, hc, htexts⟩ := exists_of_readText hfirst (by decide) schemas_of_decoyText
  use c, hc, htexts
  intro t ht a ha
  obtain ⟨hschemas, -, hrefs⟩ := schemas_of_convert hc t ht
  use hschemas a ha
  apply hrefs
  apply List.mem_cons_of_mem _ (List.mem_map_of_mem ha)

end ApiIntake
