import ApiIntake.Proofs.OpenApi.Forms

/-!
# Reading what has been written

The JSON form of a request body, and of all that it is made of, is read again as what it is the
form of: sorted or not, it conforms to the shape that the body conforms to
(`OpenApi.conform_again`).
-/

namespace ApiIntake.OpenApi

open ApiIntake.Yaml (Value Scalar)

/-! ### What a request body is made of -/

/-- The kinds of objects that a request body is made of. -/
def bodyKinds : List Kind :=
  [.requestBody, .mediaType, .encoding, .header, .example, .schema, .externalDocs, .discriminator]

/-- Whether a place is one inside a request body.  No list and no table there is one of
numbers. -/
def Shape.inBody : Shape → Bool
  | .list item | .table item => item.inBody && item ≠ .real
  | .object kind | .refOr kind => bodyKinds.contains kind
  | .anything | .text | .flag | .real | .count | .choice _ | .flagOrSchema => true

/-- Whether the fields of an object inside a request body can be read again. -/
def readable (fields : List Field) : Bool :=
  toldApart fields &&
    fields.all fun f => f.shape.inBody && (f.shape ≠ .real || f.presence = .optional)

variable {kind : Kind} {names names' : List String} {variant variant' : String → Option String}
  {fields : List Field} {shape : Shape} {form j : Json} {v : Value}
  {entries : List (Value × Value)} {members : List (String × Json)}

/-- The fields of whatever a request body is made of can be read again. -/
theorem readable_of_fields? (hkind : kind ∈ bodyKinds)
    (h : kind.fields? names variant = some fields) :
  readable fields = true
  := by
  by_cases hheader : kind = .header
  · subst hheader
    simp only [Kind.fields?, formatField, Option.some_inj] at h
    split at h
    all_goals
      subst h
      decide +kernel
  · simp only [bodyKinds, List.mem_cons, List.not_mem_nil, hheader, or_false, false_or] at hkind
    obtain rfl | rfl | rfl | rfl | rfl | rfl | rfl := hkind
    all_goals
      cases h
      decide +kernel

/-- No key beyond the fields holds anything but an extension. -/
theorem others_of_bodyKinds (hkind : kind ∈ bodyKinds) :
  kind.others = .ignored
  := by
  simp only [bodyKinds, List.mem_cons, List.not_mem_nil, or_false] at hkind
  obtain rfl | rfl | rfl | rfl | rfl | rfl | rfl | rfl := hkind <;> rfl

/-- Only a header has fields that depend on its keys. -/
theorem fields?_congr (hkind : kind ∈ bodyKinds)
    (h : kind = .header → formatField names = formatField names') :
  kind.fields? names variant = kind.fields? names' variant'
  := by
  by_cases hheader : kind = .header
  · subst hheader
    simp only [Kind.fields?, h rfl]
  · simp only [bodyKinds, List.mem_cons, List.not_mem_nil, hheader, or_false, false_or] at hkind
    obtain rfl | rfl | rfl | rfl | rfl | rfl | rfl := hkind <;> rfl

/-- A schema has no field that has to be there. -/
theorem presence_of_schema {f : Field} (h : Kind.schema.fields? names variant = some fields)
    (hf : f ∈ fields) :
  f.presence ≠ .required
  := by
  have hall : fields.all (·.presence ≠ .required) = true := by
    cases h
    decide +kernel
  have hne := List.all_eq_true.mp hall f hf
  rw [decide_eq_true_eq] at hne
  apply hne

/-! ### Members that are written -/

/-- What is written can be read again: as what it is the form of, or as a number that is no
finite one and is written as null. -/
def Again (shape : Shape) (form : Json) : Prop :=
  (shape.conform .strict (Value.ofJson form.sorted)).isSome = true ∨ shape = .real ∧ form = .null

/-- The fields of a schema that are left out where they hold nothing. -/
def SchemaForm.emptied : List String :=
  ["properties", "required", "enum", "oneOf", "anyOf", "allOf"]

/-- Whether a member of a schema is left out because it holds nothing. -/
def leftOut (entries : List (Value × Value)) (m : String × Json) : Bool :=
  SchemaForm.emptied.contains m.1 && holdsNothing m.2 &&
    !(SchemaForm.ofEntries entries).writesEmpty m.1

/-- What is written under a key of a schema: the limits of whole numbers as they are. -/
def settled (entries : List (Value × Value)) (key : String) (j : Json) : Json :=
  if SchemaForm.ofEntries entries = .integer ∧ key ∈ SchemaForm.limits then
    ((field? entries key).bind Value.toJson?).getD j
  else j

/-- The members of a schema are those that are not left out. -/
theorem settleMembers_schema (entries : List (Value × Value)) (members : List (String × Json)) :
  settleMembers .schema entries members =
    (members.filter fun m => !leftOut entries m).map fun m => (m.1, settled entries m.1 m.2)
  := by
  rw [settleMembers, if_pos rfl]
  apply congrArg₂ _ _ rfl
  funext m
  simp only [settled, field?, List.contains_iff_mem]
  split_ifs <;> rfl

/-- What a schema is written with comes from a member that is not left out. -/
theorem exists_of_mem_settleMembers {key : String}
    (h : (key, j) ∈ settleMembers .schema entries members) :
  ∃ j', (key, j') ∈ members ∧ leftOut entries (key, j') = false ∧ settled entries key j' = j
  := by
  rw [settleMembers_schema] at h
  obtain ⟨⟨k, j'⟩, hj', heq⟩ := List.mem_map.mp h
  obtain ⟨hmem, hkept⟩ := List.mem_filter.mp hj'
  rw [Bool.not_eq_true'] at hkept
  cases heq
  use j', hmem, hkept

/-- The members of any other object are those that its entries come to. -/
theorem settleMembers_of_ne (h : kind ≠ .schema) :
  settleMembers kind entries members = members
  := by
  rw [settleMembers, if_neg h]

/-- The keys of an object are keys of its members. -/
theorem map_fst_settleMembers_sublist (kind : Kind) (entries : List (Value × Value))
    (members : List (String × Json)) :
  ((settleMembers kind entries members).map Prod.fst).Sublist (members.map Prod.fst)
  := by
  by_cases hkind : kind = .schema
  · subst hkind
    rw [settleMembers_schema, List.map_map]
    apply List.filter_sublist.map
  · rw [settleMembers_of_ne hkind]

/-- The fields of whatever a request body is made of are told apart. -/
theorem OfKind.apart (hof : OfKind kind entries names fields members) (hkind : kind ∈ bodyKinds) :
  toldApart fields = true
  := by
  have hreadable := readable_of_fields? hkind hof.told
  rw [readable, Bool.and_eq_true] at hreadable
  apply hreadable.1

/-- Whatever a request body is made of comes to members of different keys. -/
theorem OfKind.nodup (hof : OfKind kind entries names fields members) (hkind : kind ∈ bodyKinds)
    (hk : Value.keysDiffer entries = true) :
  (members.map Prod.fst).Nodup
  := by
  apply nodup_of_conformEntries (hof.apart hkind) hk hof.written

/-- Whatever a request body is made of is written with members of different keys. -/
theorem OfKind.nodup_settleMembers (hof : OfKind kind entries names fields members)
    (hkind : kind ∈ bodyKinds) (hk : Value.keysDiffer entries = true) :
  ((settleMembers kind entries members).map Prod.fst).Nodup
  := by
  apply (hof.nodup hkind hk).sublist (map_fst_settleMembers_sublist ..)

/-- Under the name of a field, whatever a request body is made of has what is written of the value
there. -/
theorem OfKind.lookup_eq (hof : OfKind kind entries names fields members) (hkind : kind ∈ bodyKinds)
    (hk : Value.keysDiffer entries = true) {key : String} {f : Field}
    (hf : fields.find? (·.name = key) = some f) :
  members.lookup key = ((Value.map entries).get? key).bind fun v => (f.write? v).join
  := by
  apply lookup_of_conformEntries (hof.apart hkind) hk hof.written hf

/-- What is written of a field is the form of its value. -/
theorem conform_of_write? {f : Field} (h : f.write? v = some (some j)) :
  f.shape.conform .strict v = some j
  := by
  rw [Field.write?] at h
  split_ifs at h with hnull
  · cases h
  · obtain ⟨j', hj', h⟩ := Option.map_eq_some_iff.mp h
    split_ifs at h
    cases h
    apply hj'

/-- The limits of whole numbers are whole. -/
theorem numbersWhole_of_integer (hform : SchemaForm.ofEntries entries = .integer) :
  SchemaForm.numbersWhole (SchemaForm.present entries) = true
  := by
  have hadmits : (SchemaForm.ofEntries entries).admits entries = true := by
    apply SchemaForm.admits_of_keywords
    rw [hform]
    rintro ⟨⟩
  apply (SchemaForm.admits_iff.mp hadmits).2.2 hform

/-- A limit of whole numbers is a whole number. -/
theorem exists_of_integer (hk : Value.keysDiffer entries = true)
    (hform : SchemaForm.ofEntries entries = .integer) {key : String}
    (hkey : key ∈ SchemaForm.limits) (hv : field? entries key = some v) :
  ∃ n text, v = .scalar (.int n) text
  := by
  have hv' := (SchemaForm.numbersWhole_iff hk).mp (numbersWhole_of_integer hform) key hkey v hv
  rw [field?_eq hk] at hv
  obtain ⟨-, hnull⟩ := Option.filter_eq_some_iff.mp hv
  match v with
  | .scalar (.int n) text => use n, text
  | .scalar .null _ => cases hnull
  | .scalar (.bool _) _ | .scalar (.huge _) _ | .scalar (.float _) _ | .scalar (.infinity _) _
  | .scalar .nan _ | .scalar (.str _) _ | .scalar .mistagged _ | .list _ | .map _
  | .tagged _ _ => cases hv'

/-- A limit of a schema is a number. -/
theorem shape_of_limit {f : Field} {key : String}
    (h : Kind.schema.fields? names variant = some fields) (hkey : key ∈ SchemaForm.limits)
    (hf : fields.find? (·.name = key) = some f) :
  f.shape = .real
  := by
  cases h
  simp only [SchemaForm.limits, List.mem_cons, List.not_mem_nil, or_false] at hkey
  obtain rfl | rfl | rfl := hkey
  all_goals
    cases hf
    rfl

/-- What is written of a field can be read again if the values inside can. -/
theorem OfKind.again (hof : OfKind kind entries names fields members) (hkind : kind ∈ bodyKinds)
    (hk : Value.keysDiffer entries = true)
    (again : ∀ e ∈ entries, ∀ shape form, shape.inBody = true →
      shape.conform .strict e.2 = some form → Again shape form)
    {key : String} {f : Field} (hf : fields.find? (·.name = key) = some f)
    (h : (key, j) ∈ settleMembers kind entries members) :
  Again f.shape j
  := by
  have hreadable := readable_of_fields? hkind hof.told
  rw [readable, Bool.and_eq_true, List.all_eq_true] at hreadable
  have hmember {j : Json} (hj : (key, j) ∈ members) :
      ∃ e ∈ entries, e.1.text? = some key ∧ f.shape.conform .strict e.2 = some j := by
    obtain ⟨e, he, heq⟩ := ((mem_of_conformEntries hof.written).2 _).mp hj
    obtain ⟨-, ⟨f', hf', hwrite⟩ | ⟨hnone, -⟩⟩ := name_of_memberOf? heq
    · rw [hf] at hf'
      cases hf'
      exact ⟨e, he, key_of_memberOf? hreadable.1 heq, conform_of_write? hwrite⟩
    · rw [hf] at hnone
      cases hnone
  have hmem {j : Json} (hj : (key, j) ∈ members) : Again f.shape j := by
    obtain ⟨e, he, -, hconform⟩ := hmember hj
    have hbody := hreadable.2 f (List.mem_of_find?_eq_some hf)
    rw [Bool.and_eq_true] at hbody
    apply again e he f.shape j hbody.1 hconform
  by_cases hschema : kind = .schema
  · subst hschema
    obtain ⟨j', hj', -, rfl⟩ := exists_of_mem_settleMembers h
    rw [settled]
    split_ifs with hlimit
    · cases hv : field? entries key with
      | none => apply hmem hj'
      | some v =>
          obtain ⟨n, text, rfl⟩ := exists_of_integer hk hlimit.1 hlimit.2 hv
          rw [field?_eq hk] at hv
          obtain ⟨hv, -⟩ := Option.filter_eq_some_iff.mp hv
          obtain ⟨⟨k, w⟩, he, hkey, hconform⟩ := hmember hj'
          obtain ⟨t, rfl⟩ := Value.exists_of_text? hkey
          rw [Value.get?_of_mem hk he] at hv
          cases hv
          -- a whole number is read as the one that it is written for
          left
          rw [shape_of_limit hof.told hlimit.2 hf] at hconform ⊢
          apply Option.isSome_iff_exists.mpr ⟨_, hconform⟩
    · apply hmem hj'
  · rw [settleMembers_of_ne hschema] at h
    apply hmem h

/-! ### Objects -/

/-- The keys of the data of an object are read as they are. -/
theorem mapM_fieldName?_ofJsonMembers (members : List (String × Json)) :
  (Value.ofJsonMembers members).mapM (fun e => Reading.strict.fieldName? e.1) =
    some (members.map Prod.fst)
  := by
  induction members with
  | nil => rfl
  | cons m rest ih =>
      rw [Value.ofJsonMembers, List.mapM_cons, ih]
      rfl

/-- The entries of an object of a kind, as they are read of its sorted form. -/
def rewritten (members : List (String × Json)) : List (String × Json) :=
  Json.sortMembers (Json.sortedValues members)

/-- The data of the sorted form of an object. -/
theorem ofJson_sorted_obj (members : List (String × Json)) :
  Value.ofJson (Json.obj members).sorted = .map (Value.ofJsonMembers (rewritten members))
  := by
  rw [Json.sorted, Value.ofJson, rewritten]

/-- The keys of an object are those of its sorted form. -/
theorem map_fst_rewritten_perm (h : (members.map Prod.fst).Nodup) :
  ((rewritten members).map Prod.fst).Perm (members.map Prod.fst)
  := by
  rw [← Json.map_fst_sortedValues members] at h ⊢
  apply (Json.sortMembers_perm h).map

/-- What stands under a key of an object stands there in its sorted form, sorted. -/
theorem get?_rewritten (h : (members.map Prod.fst).Nodup) (key : String) :
  (Value.map (Value.ofJsonMembers (rewritten members))).get? key =
    (members.lookup key).map fun j => Value.ofJson j.sorted
  := by
  rw [← Json.map_fst_sortedValues] at h
  rw [Value.get?_ofJsonMembers, rewritten, Json.lookup_sortMembers h, Json.lookup_sortedValues,
    Option.map_map]
  rfl

/-- The keys of an object that has been written differ. -/
theorem keysDiffer_rewritten (h : (members.map Prod.fst).Nodup) :
  Value.keysDiffer (Value.ofJsonMembers (rewritten members)) = true
  := by
  apply Value.keysDiffer_ofJsonMembers
  apply (map_fst_rewritten_perm h).nodup_iff.mpr h

/-- What stands in the sorted form of an object is sorted. -/
theorem exists_of_mem_rewritten {key : String} (h : (key, j) ∈ rewritten members) :
  ∃ j', (key, j') ∈ members ∧ j'.sorted = j
  := by
  have hm := Json.sortMembers_subset _ h
  rw [Json.sortedValues_eq_map] at hm
  obtain ⟨⟨k, j'⟩, hj', heq⟩ := List.mem_map.mp hm
  cases heq
  use j', hj'

/-- A field that has to be there is written. -/
theorem OfKind.mem_of_required (hof : OfKind kind entries names fields members)
    (hkind : kind ∈ bodyKinds) {f : Field} (hf : f ∈ fields) (hrequired : f.presence = .required) :
  f.name ∈ (settleMembers kind entries members).map Prod.fst
  := by
  have hschema : kind ≠ .schema := by
    rintro rfl
    apply presence_of_schema hof.told hf hrequired
  obtain ⟨j, hj⟩ := hof.exists_of_required (hof.apart hkind) hf hrequired
  rw [settleMembers_of_ne hschema]
  apply List.mem_map_of_mem hj

/-- A key that is written is a field or that of an extension. -/
theorem OfKind.field_of_mem (hof : OfKind kind entries names fields members) {key : String}
    (hkey : key ∈ (settleMembers kind entries members).map Prod.fst) :
  (∃ f, fields.find? (·.name = key) = some f) ∨ key.startsWith "x-" = true
  := by
  have hkey := (map_fst_settleMembers_sublist ..).subset hkey
  obtain ⟨⟨k, j⟩, hm, rfl⟩ := List.mem_map.mp hkey
  obtain ⟨e, -, heq⟩ := ((mem_of_conformEntries hof.written).2 _).mp hm
  obtain ⟨-, ⟨f, hf, -⟩ | ⟨-, hx⟩⟩ := name_of_memberOf? heq
  · exact .inl ⟨f, hf⟩
  · exact .inr hx

/-- Of the two ways to say what a header holds, the form of a header has the one that counts. -/
theorem OfKind.formatField_eq (hof : OfKind .header entries names fields members)
    (hnames : ∀ name, name ∈ names' ↔ name ∈ (settleMembers .header entries members).map Prod.fst) :
  formatField names = formatField names'
  := by
  have hfields := hof.told
  simp only [Kind.fields?, formatField, Option.some_inj] at hfields
  -- the one that does not count is no field
  have hother {key : String} (hx : key.startsWith "x-" = false)
      (hnone : fields.find? (·.name = key) = none) : key ∉ names' := by
    intro hkey
    obtain ⟨f, hf⟩ | hx' := hof.field_of_mem ((hnames key).mp hkey)
    · rw [hf] at hnone
      cases hnone
    · rw [hx] at hx'
      cases hx'
  rw [formatField, formatField]
  split at hfields
  case h_1 hfind =>
    have hschema : "schema" ∉ names' :=
      hother (by decide +kernel) (by rw [← hfields]; decide +kernel)
    have hcontent : "content" ∈ names' := by
      rw [hnames]
      apply hof.mem_of_required (f := must "content" (.table (.object .mediaType))) (by decide) _
        rfl
      rw [← hfields]
      apply List.mem_append_right _ List.mem_cons_self
    have hfind' : (names'.find? fun k => k = "schema" || k = "content") = some "content" := by
      obtain ⟨k, hk⟩ := Option.isSome_iff_exists.mp
        (List.find?_isSome.mpr ⟨_, hcontent, rfl⟩ :
          (names'.find? fun k => k = "schema" || k = "content").isSome = true)
      have hkey := List.find?_some hk
      simp only [Bool.or_eq_true, decide_eq_true_eq] at hkey
      obtain rfl | rfl := hkey
      · cases hschema (List.mem_of_find?_eq_some hk)
      · apply hk
    rw [hfind']
    rfl
  case h_2 hfind =>
    have hcontent : "content" ∉ names' :=
      hother (by decide +kernel) (by rw [← hfields]; decide +kernel)
    have hfind' : (names'.find? fun k => k = "schema" || k = "content") ≠ some "content" := by
      intro hk
      apply hcontent (List.mem_of_find?_eq_some hk)
    split
    case h_1 hk => cases hfind' hk
    case h_2 => rfl

/-- The fields that the keys of an object tell are told by the keys of its form. -/
theorem OfKind.fields?_again (hof : OfKind kind entries names fields members)
    (hkind : kind ∈ bodyKinds)
    (hnames : ∀ name, name ∈ names' ↔ name ∈ (settleMembers kind entries members).map Prod.fst) :
  kind.fields? names' variant' = some fields
  := by
  rw [← hof.told]
  apply fields?_congr hkind
  rintro rfl
  apply (hof.formatField_eq hnames).symm

/-- The form of an object conforms to the kind of the object if the forms of the values inside
can be read again. -/
theorem conform_object_again (hkind : kind ∈ bodyKinds) (hk : Value.keysDiffer entries = true)
    (h : (Shape.object kind).conform .strict (.map entries) = some form)
    (again : ∀ e ∈ entries, ∀ shape form, shape.inBody = true →
      shape.conform .strict e.2 = some form → Again shape form) :
  ((Shape.object kind).conform .strict (Value.ofJson form.sorted)).isSome = true
  := by
  have hothers := others_of_bodyKinds hkind
  obtain ⟨names, fields, members, hof, rfl⟩ := (conform_object_eq_some_iff hothers).mp h
  have hreadable := readable_of_fields? hkind hof.told
  rw [readable, Bool.and_eq_true, List.all_eq_true] at hreadable
  have hnodup := hof.nodup_settleMembers hkind hk
  have hperm := map_fst_rewritten_perm hnodup
  -- each entry comes to a member, since its value can be read again
  have hall : ∀ e ∈ Value.ofJsonMembers (rewritten (settleMembers kind entries members)),
      (memberOf? fields e).isSome = true := by
    intro e he
    rw [Value.ofJsonMembers_eq_map] at he
    obtain ⟨⟨k, j⟩, hm, rfl⟩ := List.mem_map.mp he
    obtain ⟨j, hj, rfl⟩ := exists_of_mem_rewritten hm
    cases hf : fields.find? (·.name = k) with
    | none =>
        apply isSome_memberOf? hf
    | some f =>
        rw [memberOf?_eq rfl hf, Option.isSome_map, Field.write?]
        obtain hagain | ⟨hreal, rfl⟩ := hof.again hkind hk again hf hj
        · split_ifs
          · rfl
          · rw [Option.isSome_map]
            apply hagain
        · have hbody := hreadable.2 f (List.mem_of_find?_eq_some hf)
          simp only [hreal, ne_eq, not_true, decide_false, Bool.false_or, Bool.and_eq_true,
            decide_eq_true_eq] at hbody
          rw [if_pos ⟨hbody.2, rfl⟩]
          rfl
  obtain ⟨members', hmembers'⟩ := exists_of_memberOf? hall
  rw [ofJson_sorted_obj, Option.isSome_iff_exists]
  refine ⟨_, (conform_object_eq_some_iff hothers).mpr
    ⟨_, fields, members', ⟨mapM_fieldName?_ofJsonMembers _, ?_, hmembers', ?_⟩, rfl⟩⟩
  · apply hof.fields?_again hkind
    intro name
    apply hperm.mem_iff
  · rw [fieldsInOrder, List.all_eq_true]
    intro f hf
    rw [Bool.and_eq_true, Bool.or_eq_true, decide_eq_true_eq, decide_eq_true_eq,
      List.contains_iff_mem, ← imp_iff_not_or]
    constructor
    · intro hrequired
      apply hperm.mem_iff.mpr (hof.mem_of_required hkind hf hrequired)
    · apply List.nodup_iff_count_le_one.mp (hperm.nodup_iff.mpr hnodup)

/-! ### All values -/

/-- Where any JSON value may stand, a value is its own form. -/
theorem conform_anything (v : Value) :
  Shape.anything.conform .strict v = v.toJson?
  := by
  cases v with
  | scalar | list | map | tagged => rfl

/-- Any JSON value can be read again as one. -/
theorem again_anything (form : Json) :
  Again .anything form
  := by
  left
  rw [conform_anything, Value.toJson?_ofJson, Option.isSome_some]

/-- The form of a scalar can be read again. -/
theorem again_of_conformScalar {s : Scalar} {text : String}
    (h : conformScalar .strict shape s text = some form) :
  Again shape form
  := by
  cases shape with
  | anything => apply again_anything
  | real =>
      cases s with
      | int n =>
          obtain ⟨x, -, rfl⟩ := Option.map_eq_some_iff.mp h
          left
          rfl
      | float x =>
          cases h
          left
          rfl
      | infinity | nan =>
          cases h
          right
          exact ⟨rfl, rfl⟩
      | null | bool | huge | str | mistagged => cases h
  | text | flag | flagOrSchema =>
      cases s with
      | str | bool | null | int | huge | float | infinity | nan | mistagged =>
          cases h <;> (left; rfl)
  | count =>
      cases s with
      | int n =>
          obtain ⟨hn, h⟩ := Option.ite_none_right_eq_some.mp h
          cases h
          left
          change (if 0 ≤ n then some (Json.int n) else none).isSome = true
          rw [if_pos hn, Option.isSome_some]
      | str | bool | null | huge | float | infinity | nan | mistagged => cases h
  | choice texts =>
      cases s with
      | str t =>
          obtain ⟨ht, h⟩ := Option.ite_none_right_eq_some.mp h
          cases h
          left
          change (if texts.contains t = true then some (Json.str t) else none).isSome = true
          rw [if_pos ht, Option.isSome_some]
      | int | bool | null | huge | float | infinity | nan | mistagged => cases h
  | list | table | object | refOr => cases h

/-- The forms of items can be read again if each of them can. -/
theorem conformItems_again {item : Shape} {items : List Value} {forms : List Json}
    (h : conformItems .strict item items = some forms)
    (again : ∀ v ∈ items, ∀ form, item.conform .strict v = some form →
      (item.conform .strict (Value.ofJson form.sorted)).isSome = true) :
  (conformItems .strict item (Value.ofJsonItems (Json.sortedItems forms))).isSome = true
  := by
  induction items generalizing forms with
  | nil =>
      cases h
      rfl
  | cons v rest ih =>
      obtain ⟨j, hj, h⟩ := Option.bind_eq_some_iff.mp h
      obtain ⟨js, hjs, h⟩ := Option.bind_eq_some_iff.mp h
      cases h
      obtain ⟨j', hj'⟩ := Option.isSome_iff_exists.mp (again v List.mem_cons_self j hj)
      obtain ⟨js', hjs'⟩ := Option.isSome_iff_exists.mp
        (ih hjs fun w hw => again w (List.mem_cons_of_mem _ hw))
      rw [Json.sortedItems, Value.ofJsonItems, conformItems, hj', hjs']
      rfl

/-- The data of the sorted form of a list. -/
theorem ofJson_sorted_arr (forms : List Json) :
  Value.ofJson (Json.arr forms).sorted = .list (forms.map fun j => Value.ofJson j.sorted)
  := by
  rw [Json.sorted, Value.ofJson, Value.ofJsonItems_eq_map, Json.sortedItems_eq_map, List.map_map]
  rfl

/-- What conforms to a list is a list, and so is its form, item by item. -/
theorem exists_of_conform_list {item : Shape}
    (h : (Shape.list item).conform .strict v = some form) :
  ∃ items forms, v = .list items ∧ form = .arr forms ∧
    List.Forall₂ (fun v j => item.conform .strict v = some j) items forms
  := by
  cases v with
  | list items =>
      obtain ⟨forms, hforms, rfl⟩ := Option.map_eq_some_iff.mp h
      use items, forms, rfl, rfl
      clear h
      induction items generalizing forms with
      | nil =>
          cases hforms
          apply List.Forall₂.nil
      | cons v rest ih =>
          obtain ⟨j, hj, hrest⟩ := Option.bind_eq_some_iff.mp hforms
          obtain ⟨js, hjs, heq⟩ := Option.bind_eq_some_iff.mp hrest
          cases heq
          apply List.Forall₂.cons _ (ih js hjs)
          apply hj
  | scalar | map | tagged => cases h

/-- A table has a member for each entry, under the same key. -/
theorem forall₂_of_conformTable {item : Shape}
    (h : conformTable .strict item entries = some members) :
  List.Forall₂ (fun e m => e.1.text? = some m.1 ∧ item.conform .strict e.2 = some m.2)
    entries members
  := by
  induction entries generalizing members with
  | nil =>
      cases h
      apply List.Forall₂.nil
  | cons e rest ih =>
      obtain ⟨k, v⟩ := e
      obtain ⟨key, hkey, h⟩ := Option.bind_eq_some_iff.mp h
      obtain ⟨j, hj, h⟩ := Option.bind_eq_some_iff.mp h
      obtain ⟨js, hjs, h⟩ := Option.bind_eq_some_iff.mp h
      cases h
      apply List.Forall₂.cons ⟨_, hj⟩ (ih hjs)
      match k with
      | .scalar (.str _) _ => apply hkey

/-- What conforms to a table is a table, and so is its form, entry by entry. -/
theorem exists_of_conform_table {item : Shape}
    (h : (Shape.table item).conform .strict v = some form) :
  ∃ entries members, v = .map entries ∧ form = .obj members ∧
    List.Forall₂ (fun e m => e.1.text? = some m.1 ∧ item.conform .strict e.2 = some m.2)
      entries members
  := by
  cases v with
  | map entries =>
      obtain ⟨members, hmembers, rfl⟩ := Option.map_eq_some_iff.mp h
      use entries, members, rfl, rfl
      apply forall₂_of_conformTable hmembers
  | scalar | list | tagged => cases h

/-- No two things of a table have one name. -/
theorem nodup_of_table {item : Shape} (hk : Value.keysDiffer entries = true)
    (h : List.Forall₂ (fun e m => e.1.text? = some m.1 ∧
      item.conform .strict e.2 = some m.2) entries members) :
  (members.map Prod.fst).Nodup
  := by
  induction h with
  | nil => apply List.nodup_nil
  | @cons e m rest _ he hrest ih =>
      obtain ⟨hne, hk⟩ := List.pairwise_cons.mp (Value.keysDiffer_iff.mp hk)
      apply List.nodup_cons.mpr ⟨_, ih (Value.keysDiffer_iff.mpr hk)⟩
      intro hm
      obtain ⟨m', hm', hkey⟩ := List.mem_map.mp hm
      obtain ⟨e', he', hkey', -⟩ := exists_left_of_mem hrest hm'
      obtain ⟨s, hs⟩ := Value.exists_of_text? he.1
      obtain ⟨t, ht⟩ := Value.exists_of_text? hkey'
      have hne := hne e' he'
      rw [hs, ht, Value.same_str, hkey, decide_eq_true rfl] at hne
      cases hne

/-- A table of JSON values conforms if each value does. -/
theorem conformTable_ofJsonMembers {item : Shape}
    (h : ∀ m ∈ members, (item.conform .strict (Value.ofJson m.2)).isSome = true) :
  (conformTable .strict item (Value.ofJsonMembers members)).isSome = true
  := by
  induction members with
  | nil => rfl
  | cons m rest ih =>
      obtain ⟨j, hj⟩ := Option.isSome_iff_exists.mp (h m List.mem_cons_self)
      obtain ⟨js, hjs⟩ := Option.isSome_iff_exists.mp
        (ih fun n hn => h n (List.mem_cons_of_mem _ hn))
      rw [Value.ofJsonMembers, conformTable, hj, hjs]
      rfl

/-- The forms of the values of a table can be read again if each of them can. -/
theorem conformTable_again {item : Shape}
    (h : conformTable .strict item entries = some members)
    (again : ∀ e ∈ entries, ∀ form, item.conform .strict e.2 = some form →
      (item.conform .strict (Value.ofJson form.sorted)).isSome = true) :
  (conformTable .strict item (Value.ofJsonMembers (rewritten members))).isSome = true
  := by
  apply conformTable_ofJsonMembers
  rintro ⟨k, j⟩ hm
  obtain ⟨j, hj, rfl⟩ := exists_of_mem_rewritten hm
  obtain ⟨e, he, -, hconform⟩ := exists_left_of_mem (forall₂_of_conformTable h) hj
  apply again e he j hconform

/-- Where a reference may stand, an object is a reference or one of the kind. -/
theorem conform_refOr_map (kind : Kind) (entries : List (Value × Value)) :
  (Shape.refOr kind).conform .strict (.map entries) =
    if plainEntries entries = true then
      match textOf? entries "$ref" with
      | some target => some (.obj [("$ref", .str target)])
      | none => (Shape.object kind).conform .strict (.map entries)
    else none
  := by
  cases hr : textOf? entries "$ref" with
  | some target => simp only [Shape.conform, hr]
  | none => simp only [Shape.conform, hr]

/-- Where a truth value may stand as well, an object is a schema or a reference to one. -/
theorem conform_flagOrSchema_map (entries : List (Value × Value)) :
  Shape.flagOrSchema.conform .strict (.map entries) =
    (Shape.refOr .schema).conform .strict (.map entries)
  := by
  simp only [Shape.conform]

/-- The form of an object of a kind is an object. -/
theorem exists_of_conform_object
    (h : (Shape.object kind).conform .strict (.map entries) = some form) :
  ∃ members, form = .obj members
  := by
  simp only [Shape.conform, Option.bind_eq_bind, Option.bind_eq_some_iff,
    Option.ite_none_right_eq_some, Option.some_inj] at h
  obtain ⟨_, _, _, _, _, _, _, rfl⟩ := h
  exact ⟨_, rfl⟩

/-- What conforms where a reference may stand is an object, and so is its form. -/
theorem exists_of_conform_refOr (h : (Shape.refOr kind).conform .strict v = some form) :
  ∃ entries members, v = .map entries ∧ form = .obj members
  := by
  cases v with
  | map entries =>
      rw [conform_refOr_map] at h
      obtain ⟨-, h⟩ := Option.ite_none_right_eq_some.mp h
      split at h
      · cases h
        exact ⟨_, _, rfl, rfl⟩
      · obtain ⟨members, rfl⟩ := exists_of_conform_object h
        exact ⟨_, _, rfl, rfl⟩
  | scalar | list | tagged => cases h

/-- The form of an object or a reference can be read again if the form of the object can. -/
theorem conform_refOr_again (h : (Shape.refOr kind).conform .strict (.map entries) = some form)
    (again : (Shape.object kind).conform .strict (.map entries) = some form →
      ((Shape.object kind).conform .strict (Value.ofJson form.sorted)).isSome = true) :
  ((Shape.refOr kind).conform .strict (Value.ofJson form.sorted)).isSome = true
  := by
  rw [conform_refOr_map] at h
  obtain ⟨-, h⟩ := Option.ite_none_right_eq_some.mp h
  cases href : refText? form.sorted with
  | some target => rw [conform_refOr_of_ref href, Option.isSome_some]
  | none =>
      rw [conform_refOr_of_none href]
      split at h
      · cases h
        cases href
      · apply again h

/-- What conforms to a place inside a request body is written so that it can be read again. -/
theorem conform_again (v : Value) :
  ∀ shape form, v.check = .ok () → shape.inBody = true → shape.conform .strict v = some form →
    Again shape form
  := by
  induction v using Value.induction with
  | scalar s text =>
      intro shape form _ _ h
      apply again_of_conformScalar h
  | tagged tag v =>
      intro shape form _ _ h
      cases h
  | list items ih =>
      intro shape form hcheck hbody h
      cases shape with
      | anything => apply again_anything
      | list item =>
          rw [Shape.inBody, Bool.and_eq_true, decide_eq_true_eq] at hbody
          obtain ⟨forms, hforms, rfl⟩ := Option.map_eq_some_iff.mp h
          left
          rw [Json.sorted, Value.ofJson, Shape.conform, Option.isSome_map]
          apply conformItems_again hforms
          intro v hv form hform
          obtain hagain | ⟨hreal, -⟩ :=
            ih v hv item form (Value.check_list hcheck v hv) hbody.1 hform
          · apply hagain
          · cases hbody.2 hreal
      | text | flag | real | count | choice | table | object | refOr | flagOrSchema => cases h
  | map entries ih =>
      intro shape form hcheck hbody h
      obtain ⟨hkeys, hvalues⟩ := Value.check_map hcheck
      have hobject {kind : Kind} {form : Json} (hkind : kind ∈ bodyKinds)
          (h : (Shape.object kind).conform .strict (.map entries) = some form) :
          ((Shape.object kind).conform .strict (Value.ofJson form.sorted)).isSome = true := by
        apply conform_object_again hkind hkeys h
        intro e he shape form
        apply ih e he shape form (hvalues e he)
      cases shape with
      | anything => apply again_anything
      | table item =>
          rw [Shape.inBody, Bool.and_eq_true, decide_eq_true_eq] at hbody
          obtain ⟨members, hmembers, rfl⟩ := Option.map_eq_some_iff.mp h
          left
          rw [ofJson_sorted_obj, Shape.conform, Option.isSome_map]
          apply conformTable_again hmembers
          intro e he form hform
          obtain hagain | ⟨hreal, -⟩ := ih e he item form (hvalues e he) hbody.1 hform
          · apply hagain
          · cases hbody.2 hreal
      | object kind =>
          left
          apply hobject (List.contains_iff_mem.mp hbody) h
      | refOr kind =>
          left
          apply conform_refOr_again h (hobject (List.contains_iff_mem.mp hbody))
      | flagOrSchema =>
          left
          rw [conform_flagOrSchema_map] at h
          have hagain := conform_refOr_again h (hobject (by decide))
          obtain ⟨_, members, -, rfl⟩ := exists_of_conform_refOr h
          rw [ofJson_sorted_obj] at hagain ⊢
          rw [conform_flagOrSchema_map]
          apply hagain
      | text | flag | real | count | choice | list => cases h

end ApiIntake.OpenApi
