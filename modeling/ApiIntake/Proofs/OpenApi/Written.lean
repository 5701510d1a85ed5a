import ApiIntake.Proofs.OpenApi.Paths
import ApiIntake.Proofs.OpenApi.Resolution
import ApiIntake.Proofs.Tool.Ending

/-!
# References written in schemas

What a schema holds depends on its form: only the keywords of the form hold schemas
(`Yaml.Value.Holds`).  A schema refers to the references that are written in it there
(`Yaml.Value.Mentions.mem_refs`), and reaches those that are written in what they point to
(`RefScope.Meets.exists_reaches`).
-/

namespace ApiIntake

open ApiIntake.OpenApi
open ApiIntake.Yaml (Value Scalar)

/-! ### Fields of a schema object -/

namespace OpenApi.Schema

/-- The schemas in a field of a schema object. -/
def partAt (key : String) (v : Value) : Part :=
  if key = "items" ∨ key = "not" then
    match v with
    | .map _ => .one (ofValue v)
    | _ => .none
  else if key = "properties" then
    match v with
    | .map entries => .named (ofTable entries)
    | _ => .none
  else if key = "oneOf" ∨ key = "anyOf" ∨ key = "allOf" then
    match v with
    | .list items => .many (ofList items)
    | _ => .none
  else .none

/-- The schemas in the field with a key are those in what stands under the key. -/
theorem lookup_partsOf (entries : List (Value × Value)) (key : String) :
  (partsOf entries).lookup key = ((Value.map entries).get? key).map (partAt key)
  := by
  induction entries with
  | nil => rfl
  | cons entry rest ih =>
      obtain ⟨k, v⟩ := entry
      have hother (hsame : Value.same k (.scalar (.str key) key) = false) :
          (Value.map ((k, v) :: rest)).get? key = (Value.map rest).get? key := by
        rw [Value.get?, List.find?_cons, hsame]
        rfl
      cases k with
      | scalar name text =>
          cases name with
          | str name =>
              have hparts : partsOf ((.scalar (.str name) text, v) :: rest) =
                  (name, partAt name v) :: partsOf rest := by
                rw [partsOf.eq_def]
                rfl
              rw [hparts, List.lookup_cons]
              by_cases hname : name = key
              · subst hname
                rw [Value.get?, List.find?_cons, Value.same_str]
                simp
              · rw [hother (by simp [Value.same_str, hname]), ← ih,
                  beq_false_of_ne (Ne.symm hname)]
          | null | bool | int | huge | float | infinity | nan | mistagged =>
              rw [hother (by simp [Value.same]), ← ih, partsOf.eq_def]
      | list | map | tagged =>
          rw [hother (by simp [Value.same]), ← ih, partsOf.eq_def]

end OpenApi.Schema

/-! ### Schemas in a schema -/

/-- The form of the schemas that are combined in one way. -/
def OpenApi.Combination.form : Combination → SchemaForm
  | .oneOf => .oneOf
  | .anyOf => .anyOf
  | .allOf => .allOf

namespace Yaml.Value

/-- A schema, which is no reference, has another one right inside it, under a keyword of its
form. -/
inductive Holds : Value → Value → Prop
  /-- The schema of the items of an array. -/
  | items {entries : List (Value × Value)} {w : Value} (hr : textOf? entries "$ref" = none)
    (form : SchemaForm.ofEntries entries = .array) (h : (map entries).get? "items" = some w) :
    Holds (.map entries) w
  /-- The schema of a property of an object. -/
  | property {entries table : List (Value × Value)} {name text : String} {w : Value}
    (hr : textOf? entries "$ref" = none) (form : SchemaForm.ofEntries entries = .object)
    (h : (map entries).get? "properties" = some (.map table))
    (hw : (.scalar (.str name) text, w) ∈ table) :
    Holds (.map entries) w
  /-- A schema of a combination. -/
  | part {entries : List (Value × Value)} {how : Combination} {parts : List Value} {w : Value}
    (hr : textOf? entries "$ref" = none) (form : SchemaForm.ofEntries entries = how.form)
    (h : (map entries).get? how.keyword = some (.list parts)) (hw : w ∈ parts) :
    Holds (.map entries) w
  /-- The schema that is negated. -/
  | negated {entries : List (Value × Value)} {w : Value} (hr : textOf? entries "$ref" = none)
    (form : SchemaForm.ofEntries entries = .not) (h : (map entries).get? "not" = some w) :
    Holds (.map entries) w

/-- A reference is written in a schema. -/
inductive Mentions : Value → String → Prop
  /-- The schema is the reference. -/
  | here {entries : List (Value × Value)} {target : String}
    (h : textOf? entries "$ref" = some target) :
    Mentions (.map entries) target
  /-- It is written in a schema inside. -/
  | inside {v w : Value} {target : String} (h : Holds v w) (rest : Mentions w target) :
    Mentions v target

variable {v w : Value} {target : String}

/-- A schema in a list is one of the schemas of the list. -/
theorem ofValue_mem_ofList {parts : List Value} (h : w ∈ parts) :
  Schema.ofValue w ∈ Schema.ofList parts
  := by
  induction parts with
  | nil => cases h
  | cons v rest ih =>
      rw [Schema.ofList]
      obtain rfl | h := List.mem_cons.mp h
      · apply List.mem_cons_self
      · apply List.mem_cons_of_mem _ (ih h)

/-- A schema under a name in a table is one of the schemas of the table. -/
theorem ofValue_mem_ofTable {table : List (Value × Value)} {name text : String}
    (h : (.scalar (.str name) text, w) ∈ table) :
  (name, Schema.ofValue w) ∈ Schema.ofTable table
  := by
  induction table with
  | nil => cases h
  | cons entry rest ih =>
      obtain rfl | hw := List.mem_cons.mp h
      · rw [Schema.ofTable]
        apply List.mem_cons_self
      · obtain ⟨k, v⟩ := entry
        cases k with
        | scalar key text =>
            cases key with
            | str key => apply List.mem_cons_of_mem _ (ih hw)
            | null | bool | int | huge | float | infinity | nan | mistagged => apply ih hw
        | list | map | tagged => apply ih hw

/-- What a schema inside refers to, the schema refers to. -/
theorem Holds.refs_subset (h : Holds v w) :
  (Schema.ofValue w).refs ⊆ (Schema.ofValue v).refs
  := by
  cases h with
  | @items entries w hr form h | @negated entries w hr form h =>
      rw [Schema.ofValue.eq_def (.map entries)]
      simp only [hr, Schema.assemble, form, Schema.lookup_partsOf, h]
      cases w with
      | map entries => apply List.Subset.refl
      | scalar | list | tagged => apply List.nil_subset
  | property hr form h hw =>
      rw [Schema.ofValue.eq_def (.map _)]
      simp only [hr, Schema.assemble, form, Schema.lookup_partsOf, h]
      apply Schema.refs_subset_refsTable (ofValue_mem_ofTable hw)
  | @part entries how parts w hr form h hw =>
      have hmem := Schema.refs_subset_refsList (ofValue_mem_ofList hw)
      rw [Schema.ofValue.eq_def (.map entries)]
      cases how with
      | oneOf | anyOf | allOf =>
          rw [Combination.keyword] at h
          simp only [hr, Schema.assemble, form, Combination.form, Schema.lookup_partsOf, h]
          apply hmem

/-- What is written in a schema, the schema refers to. -/
theorem Mentions.mem_refs (h : Mentions v target) :
  target ∈ (Schema.ofValue v).refs
  := by
  induction h with
  | here h =>
      rw [Schema.ofValue, h]
      apply List.mem_singleton_self
  | inside h _ ih => apply h.refs_subset ih

end Yaml.Value

/-! ### References that are met -/

namespace OpenApi.RefScope

/-- A reference is met from a schema by way of what is written. -/
inductive Meets (r : RefScope) : Value → String → Prop
  /-- It is written in the schema. -/
  | here {v : Value} {target : String} (h : v.Mentions target) :
    Meets r v target
  /-- It is met from what a reference points to that is written in the schema. -/
  | through {v : Value} {next target : String} {w : Json} (h : v.Mentions next)
    (points : r.Points next w) (rest : Meets r (Value.ofJson w) target) :
    Meets r v target

variable {r : RefScope} {target : String} {s : Schema} {v : Value} {w w' : Json}

/-- A reference points to one value only. -/
theorem Points.unique (h : r.Points target w) (h' : r.Points target w') :
  w = w'
  := by
  have heq := lookup_of_points h
  rw [lookup_of_points h'] at heq
  cases heq
  rfl

/-- A value that is a reference spells out a reference where a schema may stand. -/
theorem ofValue_of_refText? (h : refText? w = some target) :
  Schema.ofValue (Value.ofJson w) = .ref target
  := by
  cases w with
  | obj members =>
      rw [refText?, Value.ofJson, entriesOf] at h
      rw [Value.ofJson, Schema.ofValue, h]
  | null | bool _ | int _ | float _ | str _ | arr _ => cases h

/-- A reference that stands for a schema points to a value, which spells out this schema or a
reference that stands for it. -/
theorem exists_of_schemaAt (h : r.schemaAt target = .ok s) :
  ∃ w, r.Points target w ∧
    (Schema.ofValue (Value.ofJson w) = s ∨
      ∃ t, Schema.ofValue (Value.ofJson w) = .ref t ∧ r.schemaAt t = .ok s)
  := by
  obtain ⟨targets, hp⟩ := resolve_eq_ok_iff.mp h
  cases hp with
  | through hf rest =>
      obtain ⟨w, hw, hreads⟩ := follow_eq_ok_iff.mp hf
      use w, hw
      cases hreads with
      | @ref t ht =>
          right
          use t, ofValue_of_refText? ht
          apply resolve_eq_ok_iff.mpr ⟨_, rest⟩
      | inline _ _ =>
          left
          cases rest
          rfl

/-- What is met from what a reference points to is reached by the schema that it stands for. -/
theorem Reaches.of_points {t : String} (hs : r.schemaAt target = .ok s) (hw : r.Points target w)
    (h : r.Reaches (Schema.ofValue (Value.ofJson w)) t) :
  r.Reaches s t ∨ r.schemaAt t = .ok s
  := by
  obtain ⟨w', hw', heq | ⟨next, heq, hnext⟩⟩ := exists_of_schemaAt hs
  · cases hw.unique hw'
    left
    rw [heq] at h
    apply h
  · cases hw.unique hw'
    rw [heq] at h
    -- on the way lies another reference that stands for the same schema
    cases h with
    | here ht =>
        cases List.mem_singleton.mp ht
        right
        apply hnext
    | through ht found rest =>
        cases List.mem_singleton.mp ht
        rw [hnext] at found
        cases found
        left
        apply rest

/-- If a reference is met that points to nothing, one is reached that stands for no schema. -/
theorem Meets.exists_reaches (h : r.Meets v target) (bad : ∀ w, ¬ r.Points target w) :
  ∃ t e, r.Reaches (Schema.ofValue v) t ∧ r.schemaAt t = .error e
  := by
  induction h with
  | @here v target h =>
      cases hs : r.schemaAt target with
      | error e => exact ⟨target, e, .here h.mem_refs, hs⟩
      | ok s =>
          obtain ⟨w, hw, -⟩ := exists_of_schemaAt hs
          cases bad w hw
  | @through v next target w h points _ ih =>
      cases hs : r.schemaAt next with
      | error e => exact ⟨next, e, .here h.mem_refs, hs⟩
      | ok s =>
          obtain ⟨t, e, ht, he⟩ := ih bad
          obtain hreach | hok := Reaches.of_points hs points ht
          · exact ⟨t, e, .through h.mem_refs hs hreach, he⟩
          · rw [he] at hok
            cases hok

end OpenApi.RefScope

end ApiIntake
