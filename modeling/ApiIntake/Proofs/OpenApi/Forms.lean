import ApiIntake.Proofs.OpenApi.Fields

/-!
# What the form of a schema depends on

The form of a schema object depends on which constraints are present, on the text of its type,
and on tests of its choices and limits (`SchemaForm.ofEntries_eq`).  So another object has the
same form if it keeps what the form is decided by (`SchemaForm.Keeps.ofEntries_eq`).
-/

namespace ApiIntake.OpenApi.SchemaForm

open ApiIntake.Yaml (Value Scalar)

variable {entries entries' : List (Value × Value)} {form : SchemaForm} {key : String}

/-- The form that a type stands for. -/
def ofType? (type : String) : Option SchemaForm :=
  [("string", SchemaForm.string), ("number", .number), ("integer", .integer),
    ("boolean", .boolean), ("array", .array), ("object", .object)].lookup type

/-- The constraints that belong to a type, besides the type itself. -/
def keywords : SchemaForm → List String
  | .string => ["format", "pattern", "enum", "minLength", "maxLength"]
  | .number | .integer =>
    ["format", "multipleOf", "exclusiveMinimum", "exclusiveMaximum", "minimum", "maximum", "enum"]
  | .boolean => ["enum"]
  | .array => ["items", "minItems", "maxItems", "uniqueItems"]
  | .object => ["properties", "required", "additionalProperties", "minProperties", "maxProperties"]
  | .oneOf | .anyOf | .allOf | .not | .any => []

/-- The test that the choices of a type have to pass. -/
def choiceTest? : SchemaForm → Option (Scalar → Bool)
  | .string => some isText
  | .number => some isNumber
  | .integer => some isWhole
  | .boolean => some isFlag
  | .array | .object | .oneOf | .anyOf | .allOf | .not | .any => none

/-- Whether all choices of a schema object pass a test or are null. -/
def choicesPass (entries : List (Value × Value)) (test : Scalar → Bool) : Bool :=
  (field? entries "enum").all fun v => (items v).all (nullOr test)

/-- The constraints that are present, in their order. -/
def stated (entries : List (Value × Value)) : List String :=
  ((present entries).map (·.1)).filter constraints.contains

/-- Whether an object that names a type has its form. -/
def admits (form : SchemaForm) (entries : List (Value × Value)) : Bool :=
  (stated entries).all (fun n => n = "type" || form.keywords.contains n) &&
    form.choiceTest?.all (choicesPass entries) &&
    (form ≠ .integer || numbersWhole (present entries))

/-- The form of an object with only one constraint, which names no type. -/
def ofStated (names : List String) : SchemaForm :=
  if names = ["oneOf"] then .oneOf
  else if names = ["anyOf"] then .anyOf
  else if names = ["allOf"] then .allOf
  else if names = ["not"] then .not
  else .any

/-- The form of an object that names a type. -/
def ofTyped (entries : List (Value × Value)) (type : String) : SchemaForm :=
  match ofType? type with
  | some form => if form.admits entries then form else .any
  | none => .any

/-- The form of an object is that of its type if it names one. -/
theorem ofEntries_eq (entries : List (Value × Value)) :
  ofEntries entries =
    match (field? entries "type").bind Value.text? with
    | some type => ofTyped entries type
    | none => ofStated (stated entries)
  := by
  rw [ofEntries, field?]
  cases hv : (present entries).lookup "type" with
  | none => rfl
  | some v =>
      cases v with
      | scalar s text =>
          cases s with
          | str type =>
              simp only [Option.bind_some, Value.text?]
              rw [ofTyped]
              cases hform : ofType? type with
              | some form =>
                  have hmem := Json.mem_of_lookup hform
                  simp only [List.mem_cons, Prod.mk.injEq, List.not_mem_nil, or_false] at hmem
                  -- of the types only this one is asked for
                  obtain ⟨rfl, rfl⟩ | ⟨rfl, rfl⟩ | ⟨rfl, rfl⟩ | ⟨rfl, rfl⟩ | ⟨rfl, rfl⟩ |
                    ⟨rfl, rfl⟩ := hmem
                  all_goals
                    simp only [true_and, false_and, if_false, String.reduceEq, admits, keywords,
                      choiceTest?, Option.all_some, Option.all_none, Bool.and_eq_true,
                      Bool.and_true, reduceCtorEq, ne_eq, not_true, not_false_eq_true, decide_true,
                      decide_false, Bool.true_or, Bool.false_or, and_assoc]
                    rfl
              | none =>
                  have hne (name : String) (h : (ofType? name).isSome = true) : type ≠ name := by
                    rintro rfl
                    rw [hform] at h
                    cases h
                  simp only [hne "string" rfl, hne "number" rfl, hne "integer" rfl,
                    hne "boolean" rfl, hne "array" rfl, hne "object" rfl, false_and, if_false]
          | null | bool | int | huge | float | infinity | nan | mistagged => rfl
      | list | map | tagged => rfl

/-! ### Constraints that are present -/

/-- The fields that are present have different names. -/
theorem nodup_present (h : Value.keysDiffer entries = true) :
  ((present entries).map Prod.fst).Nodup
  := by
  rw [present_eq_filterMap, List.Nodup, List.pairwise_map, List.pairwise_filterMap]
  apply (Value.keysDiffer_iff.mp h).imp
  intro e e' hne a ha b hb hab
  obtain ⟨-, ha⟩ := Option.ite_none_left_eq_some.mp ha
  obtain ⟨-, hb⟩ := Option.ite_none_left_eq_some.mp hb
  obtain ⟨k, hk, rfl⟩ := Option.map_eq_some_iff.mp ha
  obtain ⟨l, hl, rfl⟩ := Option.map_eq_some_iff.mp hb
  obtain ⟨s, hs⟩ := Value.exists_of_text? hk
  obtain ⟨t, ht⟩ := Value.exists_of_text? hl
  rw [hs, ht, Value.same_str] at hne
  apply of_decide_eq_false hne hab

/-- A field is one of those that are present if it is found among them. -/
theorem mem_present_iff (h : Value.keysDiffer entries = true) {v : Value} :
  (key, v) ∈ present entries ↔ field? entries key = some v
  := by
  constructor
  · apply Json.lookup_of_mem (nodup_present h)
  · apply Json.mem_of_lookup

/-- A constraint is stated if it is present. -/
theorem mem_stated_iff :
  key ∈ stated entries ↔ key ∈ constraints ∧ (field? entries key).isSome = true
  := by
  rw [stated, List.mem_filter, List.contains_iff_mem, and_comm, field?, List.lookup_isSome_iff,
    List.mem_map]
  apply and_congr_right
  intro _
  constructor
  · rintro ⟨p, hp, rfl⟩
    exact ⟨p, hp, beq_self_eq_true _⟩
  · rintro ⟨p, hp, hkey⟩
    exact ⟨p, hp, (beq_iff_eq.mp hkey).symm⟩

/-- No constraint is stated twice. -/
theorem nodup_stated (h : Value.keysDiffer entries = true) :
  (stated entries).Nodup
  := by
  apply (nodup_present h).filter

/-- The limits are whole if each of them is. -/
theorem numbersWhole_iff (h : Value.keysDiffer entries = true) :
  numbersWhole (present entries) = true ↔
    ∀ k ∈ limits, ∀ v, field? entries k = some v → nullOr isWhole v = true
  := by
  rw [numbersWhole, List.all_eq_true]
  constructor
  · intro hall k hk v hv
    have hwhole := hall _ ((mem_present_iff h).mpr hv)
    simp only [List.contains_iff_mem, hk, if_true] at hwhole
    apply hwhole
  · rintro hall ⟨k, v⟩ hv
    simp only [List.contains_iff_mem]
    split_ifs with hk
    · apply hall k hk v ((mem_present_iff h).mp hv)
    · rfl

/-- What an object that names a type has to be of its form. -/
theorem admits_iff :
  form.admits entries = true ↔
    (∀ k ∈ stated entries, k = "type" ∨ k ∈ form.keywords) ∧
    (∀ test, form.choiceTest? = some test → choicesPass entries test = true) ∧
    (form = .integer → numbersWhole (present entries) = true)
  := by
  have hnumbers : (decide (form ≠ .integer) || numbersWhole (present entries)) = true ↔
      (form = .integer → numbersWhole (present entries) = true) := by
    rw [Bool.or_eq_true, decide_eq_true_eq, imp_iff_not_or]
  simp only [admits, Bool.and_eq_true, List.all_eq_true, Bool.or_eq_true, decide_eq_true_eq,
    List.contains_iff_mem, Option.all_eq_true, hnumbers, and_assoc]

/-- An object whose form belongs to a type has what the form asks for. -/
theorem admits_of_keywords (h : (ofEntries entries).keywords ≠ []) :
  (ofEntries entries).admits entries = true
  := by
  rw [ofEntries_eq] at h ⊢
  generalize (field? entries "type").bind Value.text? = type? at h ⊢
  cases type? with
  | none =>
      simp only [ofStated] at h
      split_ifs at h <;> cases h rfl
  | some type =>
      simp only [ofTyped] at h ⊢
      cases hform : ofType? type with
      | none =>
          rw [hform] at h
          cases h rfl
      | some form =>
          rw [hform] at h
          simp only at h ⊢
          split_ifs at h ⊢ with hadmits
          · apply hadmits
          · cases h rfl

/-- A type has constraints of its own. -/
theorem keywords_of_ofType? {type : String} (h : ofType? type = some form) :
  form.keywords ≠ []
  := by
  have hmem := Json.mem_of_lookup h
  simp only [List.mem_cons, Prod.mk.injEq, List.not_mem_nil, or_false] at hmem
  obtain ⟨-, rfl⟩ | ⟨-, rfl⟩ | ⟨-, rfl⟩ | ⟨-, rfl⟩ | ⟨-, rfl⟩ | ⟨-, rfl⟩ := hmem
  all_goals rintro ⟨⟩

/-- An object whose form belongs to no type has one constraint, which is a negation or is written
even if it is empty. -/
theorem exists_of_keywords (h : (ofEntries entries).keywords = [])
    (hany : ofEntries entries ≠ .any) :
  ∃ k, stated entries = [k] ∧ (k = "not" ∨ (ofEntries entries).writesEmpty k = true)
  := by
  rw [ofEntries_eq] at h hany ⊢
  generalize (field? entries "type").bind Value.text? = type? at h hany ⊢
  cases type? with
  | none =>
      simp only [ofStated] at h hany ⊢
      split_ifs at h hany ⊢ with hone hanyOf hall hnot
      · exact ⟨_, hone, .inr rfl⟩
      · exact ⟨_, hanyOf, .inr rfl⟩
      · exact ⟨_, hall, .inr rfl⟩
      · exact ⟨_, hnot, .inl rfl⟩
      · cases hany rfl
  | some type =>
      simp only [ofTyped] at h hany ⊢
      cases hform : ofType? type with
      | none =>
          rw [hform] at hany
          cases hany rfl
      | some form =>
          rw [hform] at h hany
          simp only at h hany
          split_ifs at h hany
          · cases keywords_of_ofType? hform h
          · cases hany rfl

/-- An object is of the form of its type if another one is, with no fewer constraints. -/
theorem admits_of_admits (h : form.admits entries = true)
    (hfewer : ∀ k ∈ constraints, (field? entries' k).isSome = true →
      (field? entries k).isSome = true)
    (hchoices : ∀ test, choiceTest? form = some test → choicesPass entries test = true →
      choicesPass entries' test = true)
    (hwhole : form = .integer → numbersWhole (present entries) = true →
      numbersWhole (present entries') = true) :
  form.admits entries' = true
  := by
  obtain ⟨hstated, htest, hnumbers⟩ := admits_iff.mp h
  apply admits_iff.mpr ⟨_, _, _⟩
  · intro k hk
    obtain ⟨hconstraint, hsome⟩ := mem_stated_iff.mp hk
    apply hstated k (mem_stated_iff.mpr ⟨hconstraint, hfewer k hconstraint hsome⟩)
  · intro test heq
    apply hchoices test heq (htest test heq)
  · intro hform
    apply hwhole hform (hnumbers hform)

/-- An object keeps what the form of another one is decided by. -/
structure Keeps (entries entries' : List (Value × Value)) : Prop where
  /-- It names the same type. -/
  type : (field? entries' "type").bind Value.text? = (field? entries "type").bind Value.text?
  /-- It has no other constraints. -/
  fewer : ∀ k ∈ constraints, (field? entries' k).isSome = true → (field? entries k).isSome = true
  /-- Choices of a type are still choices of it. -/
  choices : ∀ form test, choiceTest? form = some test → choicesPass entries test = true →
    choicesPass entries' test = true
  /-- Whole limits of whole numbers are still whole. -/
  whole : ofEntries entries = .integer → numbersWhole (present entries') = true
  /-- An object of no type has the same constraints. -/
  kept : (ofEntries entries).keywords = [] → ∀ k ∈ constraints,
    (field? entries k).isSome = true → (field? entries' k).isSome = true
  /-- If an object is of no particular form, other choices do not pass a test. -/
  choices' : ofEntries entries = .any → ∀ form test, choiceTest? form = some test →
    choicesPass entries' test = true → choicesPass entries test = true
  /-- If an object is of no particular form, other limits are not whole. -/
  whole' : ofEntries entries = .any → numbersWhole (present entries') = true →
    numbersWhole (present entries) = true

/-- Two objects of which the same constraints are stated name the same combination. -/
theorem ofStated_congr (h : Value.keysDiffer entries = true) (h' : Value.keysDiffer entries' = true)
    (hiff : ∀ k ∈ constraints,
      (field? entries' k).isSome = true ↔ (field? entries k).isSome = true) :
  ofStated (stated entries') = ofStated (stated entries)
  := by
  have hperm : (stated entries').Perm (stated entries) := by
    apply (List.perm_ext_iff_of_nodup (nodup_stated h') (nodup_stated h)).mpr
    intro k
    rw [mem_stated_iff, mem_stated_iff]
    apply and_congr_right (hiff k)
  have hone (k : String) : stated entries' = [k] ↔ stated entries = [k] := by
    rw [← List.perm_singleton, ← List.perm_singleton]
    exact ⟨hperm.symm.trans, hperm.trans⟩
  simp only [ofStated, hone]

/-- What keeps what the form is decided by has the form. -/
theorem Keeps.ofEntries_eq (hkeeps : Keeps entries entries') (h : Value.keysDiffer entries = true)
    (h' : Value.keysDiffer entries' = true) :
  ofEntries entries' = ofEntries entries
  := by
  have heq := SchemaForm.ofEntries_eq entries
  rw [SchemaForm.ofEntries_eq entries', hkeeps.type]
  cases htype : (field? entries "type").bind Value.text? with
  | none =>
      rw [htype] at heq
      have huntyped : (ofEntries entries).keywords = [] := by
        rw [heq]
        simp only [ofStated]
        split_ifs <;> rfl
      rw [heq]
      apply ofStated_congr h h'
      intro k hk
      exact ⟨hkeeps.fewer k hk, hkeeps.kept huntyped k hk⟩
  | some type =>
      rw [htype] at heq
      rw [heq]
      simp only [ofTyped] at heq ⊢
      cases hform : ofType? type with
      | none => rfl
      | some form =>
          rw [hform] at heq
          simp only at heq ⊢
          by_cases hadmits : form.admits entries = true
          · rw [if_pos hadmits] at heq ⊢
            apply if_pos
            apply admits_of_admits hadmits hkeeps.fewer (hkeeps.choices form)
            rintro rfl -
            apply hkeeps.whole heq
          · rw [if_neg hadmits] at heq ⊢
            apply if_neg
            intro hadmits'
            apply hadmits
            apply admits_of_admits hadmits' (hkeeps.kept (by rw [heq]; rfl))
              (hkeeps.choices' heq form)
            intro _
            apply hkeeps.whole' heq

end ApiIntake.OpenApi.SchemaForm
