import ApiIntake.Proofs.OpenApi.Fading
import ApiIntake.Proofs.OpenApi.Written
import ApiIntake.Proofs.Tool.Reordering

/-!
# Schemas that last

The JSON form of a schema leaves out a few things that can make a difference: a constraint that
is empty, in a schema of no particular form, which may give it a form, and a number that is not
finite.  A schema where they make none (`Yaml.Value.Lasting`) is read of its sorted form as it
is, but for the order of properties (`Yaml.Value.Lasting.reordered`).  A schema of no particular
form is one still if no constraint fades (`Yaml.Value.form_of_unfading`).
-/

namespace ApiIntake

open ApiIntake.OpenApi
open ApiIntake.Yaml (Value Scalar)

namespace OpenApi

variable {key : String} {entries : List (Value × Value)} {names : List String}
  {fields : List Field} {members : List (String × Json)} {f : Field} {v : Value} {j : Json}

/-! ### What a schema that has been written holds -/

/-- No reference is written for a schema that is none. -/
theorem refText_again (hof : OfKind .schema entries names fields members)
    (hk : Value.keysDiffer entries = true) :
  textOf? (entriesAgain entries members) "$ref" = none
  := by
  have hnone : fields.find? (·.name = "$ref") = none := by
    cases hof.told
    decide +kernel
  rw [textOf?_eq (hof.keysDiffer_again hk), hof.get?_again hk,
    lookup_eq_none_of_conformEntries hof.written hnone (by decide +kernel)]
  rfl

/-- The description and the default value of a schema are written as they are, if the default
value is no number that is not finite. -/
theorem notesOf_again (hof : OfKind .schema entries names fields members)
    (hk : Value.keysDiffer entries = true)
    (hdefault : ∀ w, field? entries "default" = some w → isNonFinite w = false) :
  Schema.notesOf (entriesAgain entries members) = Schema.notesOf entries
  := by
  have hf : fields.find? (·.name = "description") = some (may "description" .text) := by
    cases hof.told
    decide +kernel
  have hf' : fields.find? (·.name = "default") = some (may "default" .anything) := by
    cases hof.told
    decide +kernel
  have hfield : (field? (entriesAgain entries members) "default").bind Value.toJson? =
      ((field? entries "default").bind Value.toJson?).map Json.sorted := by
    cases hv : field? entries "default" with
    | none =>
        rw [field?_again_of_none hof hk hf' rfl hv]
        rfl
    | some v =>
        obtain ⟨j, hj, -, hkept⟩ := exists_of_field? hof hk hf' rfl hv
        rw [settled_eq (.inr (by decide))] at hkept
        have hnull := ne_null_of_conform hk hv hj (hdefault v hv)
        rw [may, conform_anything] at hj
        rw [hkept (by rw [leftOut]; rfl) hnull, Option.bind_some, Option.bind_some, hj,
          Value.toJson?_ofJson, Option.map_some]
  rw [Schema.notesOf, Schema.notesOf, textOf?_again hof hk hf (by decide)]
  change (⟨_, ((field? (entriesAgain entries members) "default").bind Value.toJson?).map
    Json.sorted⟩ : Notes) = _
  rw [hfield, Option.map_map]
  congr 1
  apply Option.map_congr
  intro j _
  apply Json.sorted_sorted

/-- The texts of a list are those of its items. -/
theorem choicesOf_list (items : List Value) :
  Schema.choicesOf (.list items) = items.map Value.text?
  := by
  rw [Schema.choicesOf, SchemaForm.items]
  apply List.map_congr_left
  intro v _
  cases v with
  | scalar s text => cases s with | _ => rfl
  | list | map | tagged => rfl

/-- The field of the names of properties that have to be there. -/
theorem find?_required (hof : OfKind .schema entries names fields members) :
  fields.find? (·.name = "required") = some (may "required" (.list .text))
  := by
  cases hof.told
  decide +kernel

/-- A text is written as it is. -/
theorem text?_of_text (h : Shape.text.conform .strict v = some j) :
  (Value.ofJson j.sorted).text? = v.text?
  := by
  match v with
  | .scalar (.str s) _ =>
      cases h
      rfl
  | .scalar .null _ | .scalar (.bool _) _ | .scalar (.int _) _ | .scalar (.huge _) _
  | .scalar (.float _) _ | .scalar (.infinity _) _ | .scalar .nan _ | .scalar .mistagged _
  | .list _ | .map _ | .tagged _ _ => cases h

/-- Where any JSON value may stand, a text is written as it is, and nothing else as a text. -/
theorem text?_of_anything (h : Shape.anything.conform .strict v = some j) :
  (Value.ofJson j.sorted).text? = v.text?
  := by
  rw [conform_anything] at h
  match v with
  | .scalar .null _ | .scalar (.bool _) _ | .scalar (.int _) _ | .scalar (.float _) _
  | .scalar (.infinity _) _ | .scalar .nan _ | .scalar (.str _) _ =>
      cases h
      rfl
  | .list _ | .map _ =>
      obtain ⟨js, -, rfl⟩ := Option.map_eq_some_iff.mp h
      rfl
  | .scalar (.huge _) _ | .scalar .mistagged _ | .tagged _ _ => cases h

/-- The texts of a list are written as they are. -/
theorem choicesOf_again (hof : OfKind .schema entries names fields members)
    (hk : Value.keysDiffer entries = true) {item : Shape}
    (hf : fields.find? (·.name = key) = some (may key (.list item)))
    (hkey : key ∉ SchemaForm.limits)
    (htext : ∀ v j, item.conform .strict v = some j → (Value.ofJson j.sorted).text? = v.text?) :
  ((field? (entriesAgain entries members) key).map Schema.choicesOf).getD [] =
    ((field? entries key).map Schema.choicesOf).getD []
  := by
  cases hv : field? entries key with
  | none =>
      rw [field?_again_of_none hof hk hf rfl hv]
  | some v =>
      obtain ⟨j, hj, hall, hkept⟩ := exists_of_field? hof hk hf rfl hv
      rw [settled_eq (.inr hkey)] at hkept hall
      obtain ⟨items, forms, rfl, rfl, hforms⟩ := exists_of_conform_list hj
      rw [Option.map_some, Option.getD_some, choicesOf_list]
      cases hleft : leftOut entries (key, .arr forms) with
      | false =>
          rw [hkept hleft (by rintro ⟨⟩), ofJson_sorted_arr, Option.map_some, Option.getD_some,
            choicesOf_list, List.map_map]
          clear hall hkept hleft hj hv
          induction hforms with
          | nil => rfl
          | cons hj _ ih => rw [List.map_cons, List.map_cons, ih, ← htext _ _ hj]; rfl
      | true =>
          -- what is left out is empty
          rw [leftOut, Bool.and_eq_true, Bool.and_eq_true] at hleft
          obtain rfl : forms = [] := List.isEmpty_iff.mp hleft.1.2
          obtain rfl := List.forall₂_nil_right_iff.mp hforms
          cases hw : field? (entriesAgain entries members) key with
          | none => rfl
          | some w =>
              rw [hall w hw]
              rfl

/-- The schemas in a field of a schema object. -/
def partOf (entries : List (Value × Value)) (key : String) : Schema.Part :=
  ((Schema.partsOf entries).lookup key).getD .none

/-- The schemas in a field are those in what stands there. -/
theorem partOf_eq (entries : List (Value × Value)) (key : String) :
  partOf entries key = (((Value.map entries).get? key).map (Schema.partAt key)).getD .none
  := by
  rw [partOf, Schema.lookup_partsOf]

/-- What a field that is not present holds is no schema. -/
theorem partAt_of_isNull (h : isNull v = true) (key : String) :
  Schema.partAt key v = .none
  := by
  match v with
  | .scalar .null _ => simp [Schema.partAt]

/-- A field that is not present holds no schemas, and neither does its form. -/
theorem partOf_of_none (hof : OfKind .schema entries names fields members)
    (hk : Value.keysDiffer entries = true) (hf : fields.find? (·.name = key) = some f)
    (hoptional : f.presence = .optional) (h : field? entries key = none) :
  partOf entries key = .none ∧ partOf (entriesAgain entries members) key = .none
  := by
  constructor
  · rw [partOf_eq]
    rw [field?_eq hk] at h
    cases hv : (Value.map entries).get? key with
    | none => rfl
    | some v =>
        rw [hv] at h
        rw [Option.map_some, Option.getD_some]
        apply partAt_of_isNull
        simpa using h
  · rw [partOf_eq, hof.get?_again_of_none hk hf hoptional h]
    rfl

/-- What stands under a key is present there, if it is not null. -/
theorem get?_of_field? (hk : Value.keysDiffer entries = true) (h : field? entries key = some v) :
  (Value.map entries).get? key = some v
  := by
  rw [field?_eq hk] at h
  apply (Option.filter_eq_some_iff.mp h).1

/-- A field that holds one schema holds none, and neither does its form, or its form holds the
form of the schema. -/
theorem one?_again (hof : OfKind .schema entries names fields members)
    (hk : Value.keysDiffer entries = true) (hkey : key = "items" ∨ key = "not") :
  (partOf entries key).one? = none ∧ (partOf (entriesAgain entries members) key).one? = none ∨
    ∃ v j, (Value.map entries).get? key = some v ∧
      (Shape.refOr .schema).conform .strict v = some j ∧
      (partOf entries key).one? = some (Schema.ofValue v) ∧
      (partOf (entriesAgain entries members) key).one? =
        some (Schema.ofValue (Value.ofJson j.sorted))
  := by
  have hf : fields.find? (·.name = key) = some (may key (.refOr .schema)) := by
    cases hof.told
    obtain rfl | rfl := hkey <;> decide +kernel
  cases hv : field? entries key with
  | none =>
      obtain ⟨hpart, hpart'⟩ := partOf_of_none hof hk hf rfl hv
      rw [hpart, hpart']
      exact .inl ⟨rfl, rfl⟩
  | some v =>
      right
      obtain ⟨j, hj, hget⟩ := hof.get?_again_of_some hk hf rfl hv
      have hleft : leftOut entries (key, j) = false := by
        rw [leftOut]
        obtain rfl | rfl := hkey <;> rfl
      rw [hleft, settled_eq (.inr (by obtain rfl | rfl := hkey <;> decide))] at hget
      have hget' := get?_of_field? hk hv
      use v, j, hget', hj
      rw [partOf_eq, partOf_eq, hget, hget']
      obtain ⟨es, ms, rfl, rfl⟩ := exists_of_conform_refOr hj
      simp only [Option.map_some, Option.getD_some, Bool.false_eq_true, if_false, ofJson_sorted_obj,
        Schema.partAt, if_pos hkey]
      exact ⟨rfl, rfl⟩

/-- The schemas of a list are read one by one. -/
theorem ofList_eq_map (items : List Value) :
  Schema.ofList items = items.map Schema.ofValue
  := by
  induction items with
  | nil => rfl
  | cons v rest ih => rw [Schema.ofList, ih, List.map_cons]

/-- A combination combines the forms of its schemas in its form. -/
theorem list_again (hof : OfKind .schema entries names fields members)
    (hk : Value.keysDiffer entries = true) {how : Combination}
    (hform : SchemaForm.ofEntries entries = how.form) :
  (partOf entries how.keyword).list = [] ∧
      (partOf (entriesAgain entries members) how.keyword).list = [] ∨
    ∃ items forms, (Value.map entries).get? how.keyword = some (.list items) ∧
      List.Forall₂ (fun v j => (Shape.refOr .schema).conform .strict v = some j) items forms ∧
      (partOf entries how.keyword).list = items.map Schema.ofValue ∧
      (partOf (entriesAgain entries members) how.keyword).list =
        forms.map fun j => Schema.ofValue (Value.ofJson j.sorted)
  := by
  have hf : fields.find? (·.name = how.keyword) =
      some (may how.keyword (.list (.refOr .schema))) := by
    cases hof.told
    cases how <;> decide +kernel
  cases hv : field? entries how.keyword with
  | none =>
      obtain ⟨hpart, hpart'⟩ := partOf_of_none hof hk hf rfl hv
      rw [hpart, hpart']
      exact .inl ⟨rfl, rfl⟩
  | some v =>
      right
      obtain ⟨j, hj, hget⟩ := hof.get?_again_of_some hk hf rfl hv
      have hwrites : (SchemaForm.ofEntries entries).writesEmpty how.keyword = true := by
        rw [hform]
        cases how <;> rfl
      rw [leftOut_of_writesEmpty hwrites, settled_eq (.inr (by cases how <;> decide))] at hget
      have hget' := get?_of_field? hk hv
      obtain ⟨items, forms, rfl, rfl, hforms⟩ := exists_of_conform_list hj
      use items, forms, hget', hforms
      rw [partOf_eq, partOf_eq, hget, hget', ofJson_sorted_arr]
      cases how with
      | oneOf | anyOf | allOf =>
          simp [Schema.partAt, Combination.keyword, Schema.Part.list, ofList_eq_map]

/-- The schemas of an object are read one by one. -/
theorem ofTable_ofJsonMembers (members : List (String × Json)) :
  Schema.ofTable (Value.ofJsonMembers members) =
    members.map fun m => (m.1, Schema.ofValue (Value.ofJson m.2))
  := by
  induction members with
  | nil => rfl
  | cons m rest ih => rw [Value.ofJsonMembers, Schema.ofTable, ih, List.map_cons]

/-- Under each key of a table stands a schema and in its form the form of the schema. -/
theorem forall₂_of_table {table : List (Value × Value)} {forms : List (String × Json)}
    (h : List.Forall₂ (fun e m => e.1.text? = some m.1 ∧
      (Shape.refOr .schema).conform .strict e.2 = some m.2) table forms) :
  List.Forall₂ (fun p p' => p.1 = p'.1 ∧ ∃ text v j, (.scalar (.str p.1) text, v) ∈ table ∧
      (Shape.refOr .schema).conform .strict v = some j ∧
      p.2 = Schema.ofValue v ∧ p'.2 = Schema.ofValue (Value.ofJson j.sorted))
    (Schema.ofTable table) (forms.map fun m => (m.1, Schema.ofValue (Value.ofJson m.2.sorted)))
  := by
  induction h with
  | nil => apply List.Forall₂.nil
  | @cons e m rest forms he _ ih =>
      obtain ⟨k, v⟩ := e
      obtain ⟨hkey, hconform⟩ := he
      obtain ⟨text, rfl⟩ := Value.exists_of_text? hkey
      rw [Schema.ofTable, List.map_cons]
      apply List.Forall₂.cons
      · exact ⟨rfl, text, v, m.2, List.mem_cons_self, hconform, rfl, rfl⟩
      · apply ih.imp
        rintro p p' ⟨hname, text, v, j, hv, hp⟩
        exact ⟨hname, text, v, j, List.mem_cons_of_mem _ hv, hp⟩

/-- An object has the forms of its properties for properties in its form. -/
theorem table_again (hof : OfKind .schema entries names fields members)
    (hk : Value.keysDiffer entries = true) :
  (partOf entries "properties").table = [] ∧
      (partOf (entriesAgain entries members) "properties").table = [] ∨
    ∃ table forms, (Value.map entries).get? "properties" = some (.map table) ∧
      List.Forall₂ (fun e m => e.1.text? = some m.1 ∧
        (Shape.refOr .schema).conform .strict e.2 = some m.2) table forms ∧
      (partOf entries "properties").table = Schema.ofTable table ∧
      (partOf (entriesAgain entries members) "properties").table =
        (rewritten forms).map fun m => (m.1, Schema.ofValue (Value.ofJson m.2))
  := by
  have hf : fields.find? (·.name = "properties") =
      some (may "properties" (.table (.refOr .schema))) := by
    cases hof.told
    decide +kernel
  cases hv : field? entries "properties" with
  | none =>
      obtain ⟨hpart, hpart'⟩ := partOf_of_none hof hk hf rfl hv
      rw [hpart, hpart']
      exact .inl ⟨rfl, rfl⟩
  | some v =>
      right
      obtain ⟨j, hj, hget⟩ := hof.get?_again_of_some hk hf rfl hv
      rw [settled_eq (.inr (by decide))] at hget
      have hget' := get?_of_field? hk hv
      obtain ⟨table, forms, rfl, rfl, hforms⟩ := exists_of_conform_table hj
      use table, forms, hget', hforms
      rw [partOf_eq, partOf_eq, hget, hget', ofJson_sorted_obj]
      constructor
      · simp [Schema.partAt, Schema.Part.table]
      · split_ifs with hleft
        · -- what is left out is empty
          rw [leftOut, Bool.and_eq_true, Bool.and_eq_true] at hleft
          obtain rfl : forms = [] := List.isEmpty_iff.mp hleft.1.2
          rfl
        · simp [Schema.partAt, Schema.Part.table, ofTable_ofJsonMembers]

end OpenApi

/-! ### Schemas that last -/

namespace Yaml.Value

/-- The JSON form of a schema says all that makes a difference: its default value is no number
that is not finite, a schema of no particular form is one still as it is read of its form, and so
it is with the schemas inside. -/
inductive Lasting : Value → Prop
  /-- A reference is written as it is. -/
  | ref {v : Value} {target : String} (h : textOf? (entriesOf v) "$ref" = some target) :
    Lasting v
  /-- A schema is written with all that it says, and so are the schemas inside. -/
  | schema {v : Value}
    (default : ∀ w, field? (entriesOf v) "default" = some w → isNonFinite w = false)
    (still : SchemaForm.ofEntries (entriesOf v) = .any → ∀ form,
      (Shape.refOr .schema).conform .strict v = some form →
      SchemaForm.ofEntries (entriesOf (Value.ofJson form.sorted)) = .any)
    (inside : ∀ w, Holds v w → Lasting w) :
    Lasting v

end Yaml.Value

namespace OpenApi

variable {entries : List (Value × Value)} {names : List String} {fields : List Field}
  {members : List (String × Json)} {v w : Value} {form : Json}

/-- An object is read of its form as one with the properties in ascending order. -/
theorem reordered_of_table {table : List (Value × Value)} {forms : List (String × Json)}
    (hk : Value.keysDiffer table = true)
    (h : List.Forall₂ (fun e m => e.1.text? = some m.1 ∧
      (Shape.refOr .schema).conform .strict e.2 = some m.2) table forms)
    (inside : ∀ name text v form, (.scalar (.str name) text, v) ∈ table →
      (Shape.refOr .schema).conform .strict v = some form →
      Schema.Reordered (Schema.ofValue v) (Schema.ofValue (Value.ofJson form.sorted)))
    (notes : Notes) (required : List String) :
  Schema.Reordered (.object notes (Schema.ofTable table) required)
    (.object notes
      ((rewritten forms).map fun m => (m.1, Schema.ofValue (Value.ofJson m.2))) required)
  := by
  have hnodup := nodup_of_table hk h
  have htable := forall₂_of_table h
  have hnames : (Schema.ofTable table).map Prod.fst = _ :=
    map_fst_eq_iff.mpr (htable.imp fun _ _ hp => hp.1)
  have hkeys : (forms.map fun m => (m.1, Schema.ofValue (Value.ofJson m.2.sorted))).map Prod.fst =
      forms.map Prod.fst := by
    rw [List.map_map]
    rfl
  apply Schema.Reordered.object _ hnames
  · intro p p' hp
    obtain ⟨-, text, v, j, hv, hj, heq, heq'⟩ := List.forall₂_zip htable hp
    rw [heq, heq']
    apply inside p.1 text v j hv hj
  · have hperm : (Json.sortedValues forms).Perm (rewritten forms) := by
      apply (Json.sortMembers_perm _).symm
      rw [Json.map_fst_sortedValues]
      apply hnodup
    rw [Json.sortedValues_eq_map] at hperm
    have hperm' := hperm.map fun m => (m.1, Schema.ofValue (Value.ofJson m.2))
    rw [List.map_map] at hperm'
    apply hperm'
  · rw [hnames, hkeys]
    apply hnodup

/-- The schemas right inside a schema are read of their forms as they are, but for the order of
properties. -/
def InsideReordered (entries : List (Value × Value)) : Prop :=
  ∀ w form, (Value.map entries).Holds w → w.check = .ok () →
    (Shape.refOr .schema).conform .strict w = some form →
    Schema.Reordered (Schema.ofValue w) (Schema.ofValue (Value.ofJson form.sorted))

/-- A combination is read of its form as it is, but for the order of properties. -/
theorem reordered_of_combination (hof : OfKind .schema entries names fields members)
    (hcheck : (Value.map entries).check = .ok ()) (hr : textOf? entries "$ref" = none)
    (inside : InsideReordered entries) {how : Combination}
    (heq : SchemaForm.ofEntries entries = how.form) (notes : Notes) :
  Schema.Reordered (.combined notes how (partOf entries how.keyword).list)
    (.combined notes how (partOf (entriesAgain entries members) how.keyword).list)
  := by
  obtain ⟨hk, -⟩ := Value.check_map hcheck
  obtain ⟨hlist, hlist'⟩ | ⟨items, forms, hget, hforms, hlist, hlist'⟩ := list_again hof hk heq
  · rw [hlist, hlist']
    apply Schema.Reordered.same
  · rw [hlist, hlist']
    apply Schema.Reordered.combined
    · rw [List.length_map, List.length_map, hforms.length_eq]
    · intro s s' hs
      rw [List.zip_map, List.mem_map] at hs
      obtain ⟨⟨w, j⟩, hmem, heq'⟩ := hs
      cases heq'
      have hw := (List.of_mem_zip hmem).1
      apply inside w j (.part hr heq hget hw)
        (Value.check_list (Value.check_get? hcheck hget) w hw) (List.forall₂_zip hforms hmem)

/-- An object is read of its form as it is, but for the order of properties. -/
theorem reordered_of_properties (hof : OfKind .schema entries names fields members)
    (hcheck : (Value.map entries).check = .ok ()) (hr : textOf? entries "$ref" = none)
    (inside : InsideReordered entries) (heq : SchemaForm.ofEntries entries = .object)
    (notes : Notes) (required : List String) :
  Schema.Reordered (.object notes (partOf entries "properties").table required)
    (.object notes (partOf (entriesAgain entries members) "properties").table required)
  := by
  obtain ⟨hk, -⟩ := Value.check_map hcheck
  obtain ⟨hpart, hpart'⟩ | ⟨table, forms, hget, hforms, hpart, hpart'⟩ := table_again hof hk
  · rw [hpart, hpart']
    apply Schema.Reordered.same
  · rw [hpart, hpart']
    have htable := Value.check_map (Value.check_get? hcheck hget)
    apply reordered_of_table htable.1 hforms
    intro name text w j hw hj
    apply inside w j (.property hr heq hget hw) (htable.2 _ hw) hj

/-- A schema that is no reference is read of its form as it is, but for the order of
properties. -/
theorem reordered_of_object (hof : OfKind .schema entries names fields members)
    (hcheck : (Value.map entries).check = .ok ()) (hr : textOf? entries "$ref" = none)
    (hdefault : ∀ w, field? entries "default" = some w → isNonFinite w = false)
    (hstill : SchemaForm.ofEntries entries = .any →
      SchemaForm.ofEntries (entriesAgain entries members) = .any)
    (inside : InsideReordered entries) :
  Schema.Reordered (Schema.assemble entries (Schema.partsOf entries))
    (Schema.assemble (entriesAgain entries members)
      (Schema.partsOf (entriesAgain entries members)))
  := by
  obtain ⟨hk, -⟩ := Value.check_map hcheck
  have hform : SchemaForm.ofEntries (entriesAgain entries members) =
      SchemaForm.ofEntries entries := by
    by_cases hany : SchemaForm.ofEntries entries = .any
    · rw [hstill hany, hany]
    · apply ofEntries_again hof hk fun h => absurd h hany
  have hnotes := notesOf_again hof hk hdefault
  have hcombination {how : Combination} (heq : SchemaForm.ofEntries entries = how.form) :=
    reordered_of_combination hof hcheck hr inside heq (Schema.notesOf entries)
  simp only [Schema.assemble, hform, hnotes]
  cases heq : SchemaForm.ofEntries entries with
  | string =>
      have henum := choicesOf_again hof hk (find?_enum hof) (by decide) fun _ _ => text?_of_anything
      change Schema.Reordered
        (.string _ (((field? entries "enum").map Schema.choicesOf).getD []))
        (.string _ (((field? (entriesAgain entries members) "enum").map Schema.choicesOf).getD []))
      rw [henum]
      apply Schema.Reordered.same
  | number | integer | boolean | any => apply Schema.Reordered.same
  | array =>
      change Schema.Reordered (.array _ (partOf entries "items").one?)
        (.array _ (partOf (entriesAgain entries members) "items").one?)
      obtain ⟨hpart, hpart'⟩ | ⟨w, j, hget, hj, hpart, hpart'⟩ := one?_again hof hk (.inl rfl)
      · rw [hpart, hpart']
        apply Schema.Reordered.same
      · rw [hpart, hpart']
        apply Schema.Reordered.array
        apply inside w j (.items hr heq hget) (Value.check_get? hcheck hget) hj
  | object =>
      have hrequired := choicesOf_again hof hk (find?_required hof) (by decide)
        fun _ _ => text?_of_text
      change Schema.Reordered
        (.object _ (partOf entries "properties").table
          ((((field? entries "required").map Schema.choicesOf).getD []).filterMap id))
        (.object _ (partOf (entriesAgain entries members) "properties").table
          ((((field? (entriesAgain entries members) "required").map Schema.choicesOf).getD
            []).filterMap id))
      rw [hrequired]
      apply reordered_of_properties hof hcheck hr inside heq
  | oneOf => apply hcombination (show _ = Combination.oneOf.form from heq)
  | anyOf => apply hcombination (show _ = Combination.anyOf.form from heq)
  | allOf => apply hcombination (show _ = Combination.allOf.form from heq)
  | not =>
      obtain ⟨hpart, hpart'⟩ | ⟨w, j, hget, hj, hpart, hpart'⟩ := one?_again hof hk (.inr rfl)
      · rw [partOf] at hpart hpart'
        simp only [hpart, hpart']
        apply Schema.Reordered.same
      · rw [partOf] at hpart hpart'
        simp only [hpart, hpart']
        apply Schema.Reordered.negated
        apply inside w j (.negated hr heq hget) (Value.check_get? hcheck hget) hj

/-- A schema that is no reference is put together of its fields. -/
theorem ofValue_of_none (h : textOf? entries "$ref" = none) :
  Schema.ofValue (.map entries) = Schema.assemble entries (Schema.partsOf entries)
  := by
  rw [Schema.ofValue, h]

/-- A reference is written as it is. -/
theorem ofValue_of_ref {target : String} (h : textOf? (entriesOf v) "$ref" = some target)
    (hform : (Shape.refOr .schema).conform .strict v = some form) :
  Schema.ofValue v = .ref target ∧ Schema.ofValue (Value.ofJson form.sorted) = .ref target
  := by
  obtain ⟨entries, members, rfl, rfl⟩ := exists_of_conform_refOr hform
  rw [entriesOf] at h
  rw [conform_refOr_map, h] at hform
  obtain ⟨-, hform⟩ := Option.ite_none_right_eq_some.mp hform
  cases hform
  constructor
  · rw [Schema.ofValue, h]
  · rfl

end OpenApi

/-- A schema that is no reference is put together of the fields of its form. -/
theorem exists_of_schema {v : Value} {form : Json} (hr : textOf? (entriesOf v) "$ref" = none)
    (hform : (Shape.refOr .schema).conform .strict v = some form) :
  ∃ entries names fields members, v = .map entries ∧ OfKind .schema entries names fields members ∧
    Value.ofJson form.sorted = .map (entriesAgain entries members)
  := by
  obtain ⟨entries, _, rfl, -⟩ := exists_of_conform_refOr hform
  rw [entriesOf] at hr
  rw [conform_refOr_map, hr] at hform
  obtain ⟨-, hform⟩ := Option.ite_none_right_eq_some.mp hform
  obtain ⟨names, fields, members, hof, rfl⟩ := (conform_object_eq_some_iff rfl).mp hform
  rw [ofJson_sorted_obj, ← entriesAgain]
  exact ⟨entries, names, fields, members, rfl, hof, rfl⟩

/-- A schema that is no reference is read of its form in the form that it has, if no constraint
fades where it is of no particular form. -/
theorem Yaml.Value.form_of_unfading {v : Value} {form : Json} (hcheck : v.check = .ok ())
    (hr : textOf? (entriesOf v) "$ref" = none)
    (hform : (Shape.refOr .schema).conform .strict v = some form)
    (unfading : SchemaForm.ofEntries (entriesOf v) = .any → ∀ key ∈ SchemaForm.constraints,
      ∀ w, field? (entriesOf v) key = some w → fades key w = false) :
  SchemaForm.ofEntries (entriesOf (Value.ofJson form.sorted)) =
    SchemaForm.ofEntries (entriesOf v)
  := by
  obtain ⟨entries, names, fields, members, rfl, hof, hagain⟩ := exists_of_schema hr hform
  rw [hagain, entriesOf]
  apply ofEntries_again hof (Value.check_map hcheck).1 unfading

/-- A schema that lasts is read of its sorted form as it is, but for the order of properties. -/
theorem Yaml.Value.Lasting.reordered {v : Value} (h : v.Lasting) :
  ∀ form, v.check = .ok () → (Shape.refOr .schema).conform .strict v = some form →
    Schema.Reordered (Schema.ofValue v) (Schema.ofValue (Value.ofJson form.sorted))
  := by
  induction h with
  | ref h =>
      intro form _ hform
      obtain ⟨heq, heq'⟩ := ofValue_of_ref h hform
      rw [heq, heq']
      apply Schema.Reordered.same
  | @schema v default still inside ih =>
      intro form hcheck hform
      cases hr : textOf? (entriesOf v) "$ref" with
      | some target =>
          obtain ⟨heq, heq'⟩ := ofValue_of_ref hr hform
          rw [heq, heq']
          apply Schema.Reordered.same
      | none =>
          have hstill := fun hany => still hany form hform
          obtain ⟨entries, names, fields, members, rfl, hof, hagain⟩ := exists_of_schema hr hform
          have hnone := refText_again hof (Value.check_map hcheck).1
          rw [hagain, entriesOf, entriesOf] at hstill
          rw [entriesOf] at hr default
          rw [hagain, ofValue_of_none hr, ofValue_of_none hnone]
          apply reordered_of_object hof hcheck hr default hstill
          intro w form hw
          apply ih w hw form

end ApiIntake
