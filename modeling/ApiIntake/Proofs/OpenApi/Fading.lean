import ApiIntake.Proofs.OpenApi.Rereading

/-!
# Constraints that fade

The JSON form of a schema leaves out a constraint that is empty, unless it belongs to the form of
the schema, and has null for a number that is not finite.  A schema of which no constraint fades
in this way, or which has a particular form, is read of its JSON form in the form that it has
(`OpenApi.ofEntries_again`).
-/

namespace ApiIntake

open ApiIntake.OpenApi
open ApiIntake.Yaml (Value Scalar)

namespace OpenApi

variable {key : String} {entries : List (Value × Value)} {names : List String}
  {fields : List Field} {members : List (String × Json)} {f : Field} {v : Value} {j : Json}

/-! ### Fields of a schema that has been written -/

/-- The entries of a schema as they are read of its form. -/
def entriesAgain (entries : List (Value × Value)) (members : List (String × Json)) :
    List (Value × Value) :=
  Value.ofJsonMembers (rewritten (settleMembers .schema entries members))

/-- The keys of a schema differ in its form. -/
theorem OfKind.keysDiffer_again (hof : OfKind .schema entries names fields members)
    (hk : Value.keysDiffer entries = true) :
  Value.keysDiffer (entriesAgain entries members) = true
  := by
  apply keysDiffer_rewritten (hof.nodup_settleMembers (by decide) hk)

/-- What stands under a key in the form of a schema. -/
theorem OfKind.get?_again (hof : OfKind .schema entries names fields members)
    (hk : Value.keysDiffer entries = true) (key : String) :
  (Value.map (entriesAgain entries members)).get? key =
    ((members.lookup key).filter fun j => !leftOut entries (key, j)).map fun j =>
      Value.ofJson (settled entries key j).sorted
  := by
  have hnodup := hof.nodup_settleMembers (by decide) hk
  rw [entriesAgain, get?_rewritten hnodup, settleMembers_schema, Json.lookup_map (settled entries),
    Json.lookup_filter (hof.nodup (by decide) hk), Option.map_map]
  rfl

/-- An optional field that is not present is not written. -/
theorem OfKind.get?_again_of_none (hof : OfKind .schema entries names fields members)
    (hk : Value.keysDiffer entries = true) (hf : fields.find? (·.name = key) = some f)
    (hoptional : f.presence = .optional) (h : field? entries key = none) :
  (Value.map (entriesAgain entries members)).get? key = none
  := by
  rw [hof.get?_again hk, hof.lookup_eq (by decide) hk hf]
  rw [field?_eq hk] at h
  cases hv : (Value.map entries).get? key with
  | none => rfl
  | some v =>
      rw [hv] at h
      have hnull : isNull v = true := by simpa using h
      rw [Option.bind_some, Field.write?, if_pos ⟨hoptional, hnull⟩]
      rfl

/-- An optional field that is present is written as the form of its value, unless that is left
out. -/
theorem OfKind.get?_again_of_some (hof : OfKind .schema entries names fields members)
    (hk : Value.keysDiffer entries = true) (hf : fields.find? (·.name = key) = some f)
    (hoptional : f.presence = .optional) (h : field? entries key = some v) :
  ∃ j, f.shape.conform .strict v = some j ∧
    (Value.map (entriesAgain entries members)).get? key =
      if leftOut entries (key, j) then none else some (Value.ofJson (settled entries key j).sorted)
  := by
  rw [field?_eq hk] at h
  obtain ⟨hv, hnull⟩ := Option.filter_eq_some_iff.mp h
  rw [Bool.not_eq_true'] at hnull
  have hsome := hof.isSome_write? hf hv
  rw [Field.write?, if_neg (by simp [hnull]), Option.isSome_map] at hsome
  obtain ⟨j, hj⟩ := Option.isSome_iff_exists.mp hsome
  use j, hj
  rw [hof.get?_again hk, hof.lookup_eq (by decide) hk hf, hv,
    Option.bind_some, Field.write?, if_neg (by simp [hnull]), hj, hoptional]
  cases hleft : leftOut entries (key, j) with
  | true => simp [hleft]
  | false => simp [hleft]

/-! ### What fades -/

/-- A number that is not finite, which has no JSON form of its own. -/
def isNonFinite : Value → Bool
  | .scalar (.infinity _) _ | .scalar .nan _ => true
  | _ => false

/-- Whether the JSON form of a schema of no particular form does not say what a constraint in it
says. -/
def fades (key : String) : Value → Bool
  | .list items =>
    SchemaForm.emptied.contains key && items.isEmpty || key = "enum" && items.any isNonFinite
  | .map entries => SchemaForm.emptied.contains key && entries.isEmpty
  | v => isNonFinite v

/-- Only null and numbers that are not finite are written as null. -/
theorem isNonFinite_of_conform {shape : Shape} (h : shape.conform .strict v = some .null)
    (hnull : isNull v = false) :
  isNonFinite v = true
  := by
  cases v with
  | scalar s text =>
      cases s with
      | null => cases hnull
      | infinity | nan => rfl
      | int n =>
          cases shape with
          | real =>
              obtain ⟨x, -, hx⟩ := Option.map_eq_some_iff.mp h
              cases hx
          | count =>
              obtain ⟨-, hn⟩ := Option.ite_none_right_eq_some.mp h
              cases hn
          | anything | text | flag | choice | list | table | object | refOr | flagOrSchema =>
              cases h
      | str t =>
          cases shape with
          | choice texts =>
              obtain ⟨-, ht⟩ := Option.ite_none_right_eq_some.mp h
              cases ht
          | anything | text | flag | real | count | list | table | object | refOr
          | flagOrSchema => cases h
      | bool | huge | float | mistagged => cases shape with | _ => cases h
  | list items =>
      cases shape with
      | anything | list =>
          obtain ⟨js, -, hjs⟩ := Option.map_eq_some_iff.mp h
          cases hjs
      | text | flag | real | count | choice | table | object | refOr | flagOrSchema => cases h
  | map entries =>
      have hrefOr {kind : Kind}
          (h : (Shape.refOr kind).conform .strict (.map entries) = some .null) : False := by
        obtain ⟨_, _, -, heq⟩ := exists_of_conform_refOr h
        cases heq
      cases shape with
      | anything | table =>
          obtain ⟨js, -, hjs⟩ := Option.map_eq_some_iff.mp h
          cases hjs
      | object kind =>
          obtain ⟨_, heq⟩ := exists_of_conform_object h
          cases heq
      | refOr kind => cases hrefOr h
      | flagOrSchema =>
          rw [conform_flagOrSchema_map] at h
          cases hrefOr h
      | text | flag | real | count | choice | list => cases h
  | tagged tag v => cases h

/-- What is written of a value is null only if the form of the value is. -/
theorem isNull_ofJson_sorted (j : Json) :
  isNull (Value.ofJson j.sorted) = true ↔ j = .null
  := by
  cases j with
  | null | bool | int | float | str | arr | obj => simp [Json.sorted, Value.ofJson, isNull]

/-- A list or a table of which the form holds nothing is empty. -/
theorem fades_of_holdsNothing {shape item : Shape}
    (hshape : shape = .list item ∨ shape = .table item)
    (h : shape.conform .strict v = some j) (hj : holdsNothing j = true)
    (hkey : key ∈ SchemaForm.emptied) :
  fades key v = true
  := by
  obtain rfl | rfl := hshape
  · cases v with
    | list items =>
        obtain ⟨forms, hforms, rfl⟩ := Option.map_eq_some_iff.mp h
        cases items with
        | nil => simp [fades, hkey]
        | cons v rest =>
            obtain ⟨j, -, hrest⟩ := Option.bind_eq_some_iff.mp hforms
            obtain ⟨js, -, heq⟩ := Option.bind_eq_some_iff.mp hrest
            cases heq
            cases hj
    | scalar | map | tagged => cases h
  · cases v with
    | map entries =>
        obtain ⟨forms, hforms, rfl⟩ := Option.map_eq_some_iff.mp h
        cases entries with
        | nil => simp [fades, hkey]
        | cons e rest =>
            cases forall₂_of_conformTable hforms
            cases hj
    | scalar | list | tagged => cases h

/-- The constraints of a schema are optional fields. -/
theorem exists_of_constraint (hof : OfKind .schema entries names fields members)
    (hkey : key ∈ SchemaForm.constraints) :
  ∃ f, fields.find? (·.name = key) = some f ∧ f.presence = .optional
  := by
  have hall : (SchemaForm.constraints.all fun k =>
      (fields.find? (·.name = k)).any (·.presence = .optional)) = true := by
    cases hof.told
    decide +kernel
  obtain ⟨f, hf, hoptional⟩ := (Option.any_eq_true _ _).mp
    (List.all_eq_true.mp hall key hkey)
  exact ⟨f, hf, of_decide_eq_true hoptional⟩

/-- What is left out of a schema where it holds nothing is a list or a table. -/
theorem shape_of_emptied (hof : OfKind .schema entries names fields members)
    (hkey : key ∈ SchemaForm.emptied) (hf : fields.find? (·.name = key) = some f) :
  ∃ item, f.shape = .list item ∨ f.shape = .table item
  := by
  cases hof.told
  simp only [SchemaForm.emptied, List.mem_cons, List.not_mem_nil, or_false] at hkey
  obtain rfl | rfl | rfl | rfl | rfl | rfl := hkey
  all_goals
    cases hf
  · exact ⟨_, .inr rfl⟩
  all_goals exact ⟨_, .inl rfl⟩

/-- A constraint that does not fade is not left out. -/
theorem leftOut_of_fades (hof : OfKind .schema entries names fields members)
    (hf : fields.find? (·.name = key) = some f) (hj : f.shape.conform .strict v = some j)
    (hfades : fades key v = false) :
  leftOut entries (key, j) = false
  := by
  rw [Bool.eq_false_iff]
  intro hleft
  rw [leftOut, Bool.and_eq_true, Bool.and_eq_true, List.contains_iff_mem] at hleft
  obtain ⟨item, hshape⟩ := shape_of_emptied hof hleft.1.1 hf
  rw [fades_of_holdsNothing hshape hj hleft.1.2 hleft.1.1] at hfades
  cases hfades

/-- What holds something is not left out. -/
theorem leftOut_of_holdsNothing (h : holdsNothing j = false) :
  leftOut entries (key, j) = false
  := by
  rw [leftOut, h, Bool.and_false, Bool.false_and]

/-- What is written even if it is empty is not left out. -/
theorem leftOut_of_writesEmpty (h : (SchemaForm.ofEntries entries).writesEmpty key = true) :
  leftOut entries (key, j) = false
  := by
  rw [leftOut, h, Bool.not_true, Bool.and_false]

/-- A number that is not finite fades under any key. -/
theorem isNonFinite_of_fades (h : fades key v = false) :
  isNonFinite v = false
  := by
  cases v with
  | scalar s text => apply h
  | list | map | tagged => rfl

/-- What is present is written as null only if it is a number that is not finite. -/
theorem ne_null_of_conform {shape : Shape} (hk : Value.keysDiffer entries = true)
    (hv : field? entries key = some v) (hj : shape.conform .strict v = some j)
    (hfinite : isNonFinite v = false) :
  j ≠ .null
  := by
  rintro rfl
  rw [field?_eq hk] at hv
  have hnull := (Option.filter_eq_some_iff.mp hv).2
  rw [Bool.not_eq_true'] at hnull
  rw [isNonFinite_of_conform hj hnull] at hfinite
  cases hfinite

/-- An optional field that is not present is not present in the form. -/
theorem field?_again_of_none (hof : OfKind .schema entries names fields members)
    (hk : Value.keysDiffer entries = true) (hf : fields.find? (·.name = key) = some f)
    (hoptional : f.presence = .optional) (h : field? entries key = none) :
  field? (entriesAgain entries members) key = none
  := by
  rw [field?_eq (hof.keysDiffer_again hk), hof.get?_again_of_none hk hf hoptional h]
  rfl

/-- An optional field is present in the form as the form of its value, unless that is left out or
null. -/
theorem exists_of_field? (hof : OfKind .schema entries names fields members)
    (hk : Value.keysDiffer entries = true) (hf : fields.find? (·.name = key) = some f)
    (hoptional : f.presence = .optional) (hv : field? entries key = some v) :
  ∃ j, f.shape.conform .strict v = some j ∧
    (∀ w, field? (entriesAgain entries members) key = some w →
      w = Value.ofJson (settled entries key j).sorted) ∧
    (leftOut entries (key, j) = false → settled entries key j ≠ .null →
      field? (entriesAgain entries members) key =
        some (Value.ofJson (settled entries key j).sorted))
  := by
  obtain ⟨j, hj, hget⟩ := hof.get?_again_of_some hk hf hoptional hv
  use j, hj
  rw [field?_eq (hof.keysDiffer_again hk), hget]
  constructor
  · intro w hw
    obtain ⟨hw, -⟩ := Option.filter_eq_some_iff.mp hw
    obtain ⟨-, hw⟩ := Option.ite_none_left_eq_some.mp hw
    cases hw
    rfl
  · intro hleft hnull
    have hne := (isNull_ofJson_sorted (settled entries key j)).not.mpr hnull
    rw [hleft]
    simp [hne]

/-- Only limits of whole numbers are settled. -/
theorem settled_eq (h : SchemaForm.ofEntries entries ≠ .integer ∨ key ∉ SchemaForm.limits) :
  settled entries key j = j
  := by
  rw [settled, if_neg]
  rintro ⟨hform, hkey⟩
  obtain hne | hne := h
  · apply hne hform
  · apply hne hkey

/-! ### The form of a schema that has been written -/

/-- A choice that is null or passes a test is written as one. -/
theorem nullOr_again {test : Scalar → Bool} (hj : v.toJson? = some j)
    (h : SchemaForm.nullOr test v = true) :
  SchemaForm.nullOr test (Value.ofJson j.sorted) = true
  := by
  match v with
  | .scalar .null _ | .scalar (.infinity _) _ | .scalar .nan _ =>
      cases hj
      rfl
  | .scalar (.bool _) _ | .scalar (.int _) _ | .scalar (.float _) _ | .scalar (.str _) _ =>
      cases hj
      apply h
  | .scalar (.huge _) _ | .scalar .mistagged _ => cases hj
  | .list _ | .map _ | .tagged _ _ => cases h

/-- A choice that is written as one that is null or passes a test does so itself, unless it is a
number that is not finite. -/
theorem nullOr_of_again {test : Scalar → Bool} (hj : v.toJson? = some j)
    (hfinite : isNonFinite v = false)
    (h : SchemaForm.nullOr test (Value.ofJson j.sorted) = true) :
  SchemaForm.nullOr test v = true
  := by
  match v with
  | .scalar .null _ => rfl
  | .scalar (.infinity _) _ | .scalar .nan _ => cases hfinite
  | .scalar (.bool _) _ | .scalar (.int _) _ | .scalar (.float _) _ | .scalar (.str _) _ =>
      cases hj
      apply h
  | .scalar (.huge _) _ | .scalar .mistagged _ => cases hj
  | .list _ | .map _ =>
      obtain ⟨js, -, rfl⟩ := Option.map_eq_some_iff.mp hj
      cases h
  | .tagged _ _ => cases hj

/-- The field of the choices. -/
theorem find?_enum (hof : OfKind .schema entries names fields members) :
  fields.find? (·.name = "enum") = some (may "enum" (.list .anything))
  := by
  cases hof.told
  decide +kernel

/-- The field of a negation. -/
theorem find?_not (hof : OfKind .schema entries names fields members) :
  fields.find? (·.name = "not") = some (may "not" (.refOr .schema))
  := by
  cases hof.told
  decide +kernel

/-- What is written even if it is empty would otherwise be left out. -/
theorem mem_emptied_of_writesEmpty {form : SchemaForm} (h : form.writesEmpty key = true) :
  key ∈ SchemaForm.emptied
  := by
  cases form with
  | oneOf | anyOf | allOf =>
      cases of_decide_eq_true h
      decide
  | string | number | integer | boolean | array | object | not | any => cases h

/-- A limit is a constraint. -/
theorem mem_constraints_of_mem_limits (h : key ∈ SchemaForm.limits) :
  key ∈ SchemaForm.constraints
  := by
  have hsubset : SchemaForm.limits ⊆ SchemaForm.constraints := by decide
  apply hsubset h

/-- Choices that pass a test or are null are written as such. -/
theorem choicesPass_again (hof : OfKind .schema entries names fields members)
    (hk : Value.keysDiffer entries = true) {test : Scalar → Bool}
    (h : SchemaForm.choicesPass entries test = true) :
  SchemaForm.choicesPass (entriesAgain entries members) test = true
  := by
  rw [SchemaForm.choicesPass, Option.all_eq_true] at h ⊢
  intro w hw
  cases hv : field? entries "enum" with
  | none =>
      rw [field?_again_of_none hof hk (find?_enum hof) rfl hv] at hw
      cases hw
  | some v =>
      obtain ⟨j, hj, hall, -⟩ := exists_of_field? hof hk (find?_enum hof) rfl hv
      have hw := hall w hw
      rw [settled_eq (.inr (by decide))] at hw
      obtain ⟨items, forms, rfl, rfl, hforms⟩ := exists_of_conform_list hj
      rw [ofJson_sorted_arr] at hw
      subst hw
      rw [SchemaForm.items, List.all_eq_true]
      intro w hw
      obtain ⟨j, hj, rfl⟩ := List.mem_map.mp hw
      obtain ⟨v, hmem, hform⟩ := exists_left_of_mem hforms hj
      rw [conform_anything] at hform
      apply nullOr_again hform
      apply List.all_eq_true.mp (h _ hv) v hmem

/-- Choices that are written as ones that pass a test or are null do so themselves, if they do
not fade. -/
theorem choicesPass_of_again (hof : OfKind .schema entries names fields members)
    (hk : Value.keysDiffer entries = true)
    (hlast : ∀ v, field? entries "enum" = some v → fades "enum" v = false)
    {test : Scalar → Bool}
    (h : SchemaForm.choicesPass (entriesAgain entries members) test = true) :
  SchemaForm.choicesPass entries test = true
  := by
  rw [SchemaForm.choicesPass, Option.all_eq_true] at h ⊢
  intro v hv
  have hfades := hlast v hv
  obtain ⟨j, hj, -, hkept⟩ := exists_of_field? hof hk (find?_enum hof) rfl hv
  have hleft := leftOut_of_fades hof (find?_enum hof) hj hfades
  rw [settled_eq (.inr (by decide))] at hkept
  obtain ⟨items, forms, rfl, rfl, hforms⟩ := exists_of_conform_list hj
  have hpass := h _ (hkept hleft (by rintro ⟨⟩))
  rw [ofJson_sorted_arr, SchemaForm.items, List.all_eq_true] at hpass
  have hfinite := (Bool.or_eq_false_iff.mp hfades).2
  rw [decide_eq_true rfl, Bool.true_and, List.any_eq_false] at hfinite
  rw [SchemaForm.items, List.all_eq_true]
  intro v hv
  obtain ⟨j, hj, hform⟩ := exists_right_of_mem hforms hv
  rw [conform_anything] at hform
  apply nullOr_of_again hform (Bool.eq_false_iff.mpr (hfinite v hv))
  apply hpass _ (List.mem_map_of_mem hj)

/-- A number is written as a floating-point one or as null. -/
theorem exists_of_conform_real (h : Shape.real.conform .strict v = some j) :
  (∃ x, j = .float x) ∨ j = .null
  := by
  cases v with
  | scalar s text =>
      cases s with
      | int n =>
          obtain ⟨x, -, rfl⟩ := Option.map_eq_some_iff.mp h
          exact .inl ⟨x, rfl⟩
      | float x =>
          cases h
          exact .inl ⟨x, rfl⟩
      | infinity | nan =>
          cases h
          exact .inr rfl
      | null | bool | huge | str | mistagged => cases h
  | list | map | tagged => cases h

/-- Whole limits of whole numbers are written as whole. -/
theorem numbersWhole_again (hof : OfKind .schema entries names fields members)
    (hk : Value.keysDiffer entries = true) (hform : SchemaForm.ofEntries entries = .integer) :
  SchemaForm.numbersWhole (SchemaForm.present (entriesAgain entries members)) = true
  := by
  rw [SchemaForm.numbersWhole_iff (hof.keysDiffer_again hk)]
  intro k hlimit w hw
  obtain ⟨f, hf, hoptional⟩ := exists_of_constraint hof (mem_constraints_of_mem_limits hlimit)
  cases hv : field? entries k with
  | none =>
      rw [field?_again_of_none hof hk hf hoptional hv] at hw
      cases hw
  | some v =>
      obtain ⟨j, -, hall, -⟩ := exists_of_field? hof hk hf hoptional hv
      obtain ⟨n, text, rfl⟩ := exists_of_integer hk hform hlimit hv
      have hw := hall w hw
      rw [settled, if_pos ⟨hform, hlimit⟩, hv] at hw
      subst hw
      apply (SchemaForm.numbersWhole_iff hk).mp (numbersWhole_of_integer hform) k hlimit _ hv

/-- The limits of a schema of no particular form are not written as whole. -/
theorem numbersWhole_of_again (hof : OfKind .schema entries names fields members)
    (hk : Value.keysDiffer entries = true) (hform : SchemaForm.ofEntries entries = .any)
    (hlast : ∀ key ∈ SchemaForm.constraints, ∀ v, field? entries key = some v →
      fades key v = false)
    (h : SchemaForm.numbersWhole (SchemaForm.present (entriesAgain entries members)) = true) :
  SchemaForm.numbersWhole (SchemaForm.present entries) = true
  := by
  rw [SchemaForm.numbersWhole_iff hk]
  rw [SchemaForm.numbersWhole_iff (hof.keysDiffer_again hk)] at h
  intro k hlimit v hv
  have hkey := mem_constraints_of_mem_limits hlimit
  obtain ⟨f, hf, hoptional⟩ := exists_of_constraint hof hkey
  have hfades := hlast k hkey v hv
  obtain ⟨j, hj, -, hkept⟩ := exists_of_field? hof hk hf hoptional hv
  rw [settled_eq (.inl (by rw [hform]; rintro ⟨⟩))] at hkept
  have hnull := ne_null_of_conform hk hv hj (isNonFinite_of_fades hfades)
  have hwhole := h k hlimit _ (hkept (leftOut_of_fades hof hf hj hfades) hnull)
  rw [shape_of_limit hof.told hlimit hf] at hj
  obtain ⟨x, rfl⟩ | rfl := exists_of_conform_real hj
  · cases hwhole
  · cases hnull rfl

/-- A text is written as it is. -/
theorem textOf?_again (hof : OfKind .schema entries names fields members)
    (hk : Value.keysDiffer entries = true) (hf : fields.find? (·.name = key) = some (may key .text))
    (hkey : key ∉ SchemaForm.limits) :
  textOf? (entriesAgain entries members) key = textOf? entries key
  := by
  rw [textOf?_eq_bind_field? hk, textOf?_eq_bind_field? (hof.keysDiffer_again hk)]
  cases hv : field? entries key with
  | none => rw [field?_again_of_none hof hk hf rfl hv]
  | some v =>
      obtain ⟨j, hj, -, hkept⟩ := exists_of_field? hof hk hf rfl hv
      rw [settled_eq (.inr hkey)] at hkept
      match v with
      | .scalar (.str s) text =>
          cases hj
          rw [hkept (leftOut_of_holdsNothing rfl) (by rintro ⟨⟩)]
          rfl
      | .scalar .null _ | .scalar (.bool _) _ | .scalar (.int _) _ | .scalar (.huge _) _
      | .scalar (.float _) _ | .scalar (.infinity _) _ | .scalar .nan _ | .scalar .mistagged _
      | .list _ | .map _ | .tagged _ _ => cases hj

/-- The constraints of a schema of no type are present in its form, if they do not fade. -/
theorem isSome_again (hof : OfKind .schema entries names fields members)
    (hk : Value.keysDiffer entries = true)
    (hlast : SchemaForm.ofEntries entries = .any → ∀ key ∈ SchemaForm.constraints,
      ∀ v, field? entries key = some v → fades key v = false)
    (hkeywords : (SchemaForm.ofEntries entries).keywords = []) (hkey : key ∈ SchemaForm.constraints)
    (hsome : (field? entries key).isSome = true) :
  (field? (entriesAgain entries members) key).isSome = true
  := by
  obtain ⟨v, hv⟩ := Option.isSome_iff_exists.mp hsome
  obtain ⟨f, hf, hoptional⟩ := exists_of_constraint hof hkey
  obtain ⟨j, hj, -, hkept⟩ := exists_of_field? hof hk hf hoptional hv
  rw [settled_eq (.inl (by rintro heq; rw [heq] at hkeywords; cases hkeywords))] at hkept
  by_cases hany : SchemaForm.ofEntries entries = .any
  · have hfades := hlast hany key hkey v hv
    have hnull := ne_null_of_conform hk hv hj (isNonFinite_of_fades hfades)
    rw [hkept (leftOut_of_fades hof hf hj hfades) hnull]
    rfl
  · -- there is no other constraint
    obtain ⟨k', hstated, hk'⟩ := SchemaForm.exists_of_keywords hkeywords hany
    have hmem := SchemaForm.mem_stated_iff.mpr ⟨hkey, hsome⟩
    rw [hstated, List.mem_singleton] at hmem
    subst hmem
    obtain rfl | hwrites := hk'
    · rw [find?_not hof] at hf
      cases hf
      obtain ⟨_, _, -, rfl⟩ := exists_of_conform_refOr hj
      rw [hkept (by rw [leftOut]; rfl) (by rintro ⟨⟩)]
      rfl
    · have hnull : j ≠ .null := by
        obtain ⟨item, hshape | hshape⟩ :=
          shape_of_emptied hof (mem_emptied_of_writesEmpty hwrites) hf
        · rw [hshape] at hj
          obtain ⟨_, _, -, rfl, -⟩ := exists_of_conform_list hj
          rintro ⟨⟩
        · rw [hshape] at hj
          obtain ⟨_, _, -, rfl, -⟩ := exists_of_conform_table hj
          rintro ⟨⟩
      rw [hkept (leftOut_of_writesEmpty hwrites) hnull]
      rfl

/-- A schema that lasts keeps what its form is decided by. -/
theorem keeps_again (hof : OfKind .schema entries names fields members)
    (hk : Value.keysDiffer entries = true)
    (hlast : SchemaForm.ofEntries entries = .any → ∀ key ∈ SchemaForm.constraints,
      ∀ v, field? entries key = some v → fades key v = false) :
  SchemaForm.Keeps entries (entriesAgain entries members)
  := by
  constructor
  case type =>
    rw [← textOf?_eq_bind_field? hk, ← textOf?_eq_bind_field? (hof.keysDiffer_again hk)]
    apply textOf?_again hof hk _ (by decide)
    cases hof.told
    decide +kernel
  case fewer =>
    intro k hkey hsome
    obtain ⟨f, hf, hoptional⟩ := exists_of_constraint hof hkey
    cases hv : field? entries k with
    | some v => rfl
    | none =>
        rw [field?_again_of_none hof hk hf hoptional hv] at hsome
        cases hsome
  case choices =>
    intro _ test _
    apply choicesPass_again hof hk
  case whole => apply numbersWhole_again hof hk
  case kept =>
    intro hkeywords k
    apply isSome_again hof hk hlast hkeywords
  case choices' =>
    intro hform _ test _
    apply choicesPass_of_again hof hk (hlast hform "enum" (by decide))
  case whole' =>
    intro hform
    apply numbersWhole_of_again hof hk hform (hlast hform)

/-- A schema that lasts is read in the form that it has. -/
theorem ofEntries_again (hof : OfKind .schema entries names fields members)
    (hk : Value.keysDiffer entries = true)
    (hlast : SchemaForm.ofEntries entries = .any → ∀ key ∈ SchemaForm.constraints,
      ∀ v, field? entries key = some v → fades key v = false) :
  SchemaForm.ofEntries (entriesAgain entries members) = SchemaForm.ofEntries entries
  := by
  apply (keeps_again hof hk hlast).ofEntries_eq hk (hof.keysDiffer_again hk)

end OpenApi

end ApiIntake
