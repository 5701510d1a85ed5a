import ApiIntake.Proofs.Json.Sorted
import ApiIntake.Proofs.OpenApi.Paths
import ApiIntake.Proofs.OpenApi.Resolution

/-!
# Fields of an object

What a reader sees of an object is what stands under its keys (`field?_eq`, `textOf?_eq`).  The
JSON form of an object has a member for each field that says something
(`lookup_of_conformEntries`), and no others but extensions.
-/

namespace ApiIntake

open ApiIntake.OpenApi
open ApiIntake.Yaml (Value Scalar)

/-! ### JSON values as data -/

namespace Yaml.Value

variable {key : String} {members : List (String × Json)} {entries : List (Value × Value)}

/-- What is proved of a value may use what is known of its items and of the values of its
entries. -/
@[elab_as_elim]
theorem induction {P : Value → Prop} (scalar : ∀ s text, P (.scalar s text))
    (list : ∀ items, (∀ v ∈ items, P v) → P (.list items))
    (map : ∀ entries, (∀ e ∈ entries, P e.2) → P (.map entries))
    (tagged : ∀ tag v, P v → P (.tagged tag v)) (v : Value) :
  P v
  := by
  induction hn : sizeOf v using Nat.strongRecOn generalizing v with
  | ind n ih =>
      subst hn
      cases v with
      | scalar s text => apply scalar
      | list items =>
          apply list
          intro v hv
          have hlt := List.sizeOf_lt_of_mem hv
          apply ih _ _ v rfl
          rw [Value.list.sizeOf_spec]
          omega
      | map entries =>
          apply map
          intro e he
          have hlt := List.sizeOf_lt_of_mem he
          obtain ⟨k, v⟩ := e
          rw [Prod.mk.sizeOf_spec] at hlt
          apply ih _ _ v rfl
          rw [Value.map.sizeOf_spec]
          omega
      | tagged tag v =>
          apply tagged
          apply ih _ _ v rfl
          rw [Value.tagged.sizeOf_spec]
          omega

/-- The items of an array are the data of its items. -/
theorem ofJsonItems_eq_map (items : List Json) :
  ofJsonItems items = items.map ofJson
  := by
  induction items with
  | nil => rfl
  | cons v rest ih => rw [ofJsonItems, ih, List.map_cons]

/-- The entries of an object are its keys and the data under them. -/
theorem ofJsonMembers_eq_map (members : List (String × Json)) :
  ofJsonMembers members = members.map fun m => (.scalar (.str m.1) m.1, ofJson m.2)
  := by
  induction members with
  | nil => rfl
  | cons m rest ih => rw [ofJsonMembers, ih, List.map_cons]

mutual

/-- Data that is a JSON value is that JSON value. -/
theorem toJson?_ofJson (v : Json) :
  (ofJson v).toJson? = some v
  := by
  match v with
  | .arr items => rw [ofJson, toJson?, toJsonItems?_ofJsonItems, Option.map_some]
  | .obj members => rw [ofJson, toJson?, toJsonEntries?_ofJsonMembers, Option.map_some]
  | .null | .bool _ | .int _ | .float _ | .str _ => rfl

/-- The data of the items of an array are these items. -/
theorem toJsonItems?_ofJsonItems (items : List Json) :
  toJsonItems? (ofJsonItems items) = some items
  := by
  match items with
  | [] => rfl
  | v :: rest =>
      rw [ofJsonItems, toJsonItems?, toJson?_ofJson, toJsonItems?_ofJsonItems]
      rfl

/-- The data of the members of an object are these members. -/
theorem toJsonEntries?_ofJsonMembers (members : List (String × Json)) :
  toJsonEntries? (ofJsonMembers members) = some members
  := by
  match members with
  | [] => rfl
  | (k, v) :: rest =>
      rw [ofJsonMembers, toJsonEntries?, toJson?_ofJson, toJsonEntries?_ofJsonMembers]
      rfl

end

/-- The text that a value is. -/
def text? : Value → Option String
  | .scalar (.str s) _ => some s
  | _ => none

/-- A value that is a text is the scalar with it. -/
theorem exists_of_text? {k : Value} (h : k.text? = some key) :
  ∃ t, k = .scalar (.str key) t
  := by
  match k with
  | .scalar (.str _) t =>
      cases h
      use t

/-- A value is the same as a text if it is this text. -/
theorem same_str_iff {k : Value} {text : String} :
  same k (.scalar (.str key) text) = true ↔ k.text? = some key
  := by
  cases k with
  | scalar s _ => cases s with | _ => simp [same, text?]
  | list | map | tagged => simp [same, text?]

/-- What stands under a key of an object is the data of the member with the key. -/
theorem get?_ofJsonMembers (key : String) (members : List (String × Json)) :
  (Value.map (ofJsonMembers members)).get? key = (members.lookup key).map ofJson
  := by
  induction members with
  | nil => rfl
  | cons m rest ih =>
      obtain ⟨k, v⟩ := m
      rw [get?] at ih
      rw [ofJsonMembers, get?, List.find?_cons, List.lookup_cons, same_str]
      by_cases hk : k = key
      · subst hk
        simp
      · rw [decide_eq_false hk, beq_false_of_ne (Ne.symm hk)]
        apply ih

/-- The keys of an object differ as data if no two members have one key. -/
theorem keysDiffer_ofJsonMembers (h : (members.map Prod.fst).Nodup) :
  keysDiffer (ofJsonMembers members) = true
  := by
  rw [keysDiffer_iff, ofJsonMembers_eq_map, List.pairwise_map]
  apply (List.pairwise_map.mp h).imp
  intro a b hab
  rw [same_str, decide_eq_false hab]

/-- What stands under a key is an entry with the key. -/
theorem exists_of_get? {v : Value} (h : (Value.map entries).get? key = some v) :
  ∃ text, (.scalar (.str key) text, v) ∈ entries
  := by
  obtain ⟨⟨k, v⟩, hfound, rfl⟩ := Option.map_eq_some_iff.mp h
  have hsame := List.find?_some hfound
  obtain ⟨text, rfl⟩ := exists_of_text? (same_str_iff.mp hsame)
  use text
  apply List.mem_of_find?_eq_some hfound

/-- Where keys differ, an entry with a key is what stands under the key. -/
theorem get?_of_mem (h : keysDiffer entries = true) {v : Value} {text : String}
    (hv : (.scalar (.str key) text, v) ∈ entries) :
  (Value.map entries).get? key = some v
  := by
  induction entries with
  | nil => cases hv
  | cons e rest ih =>
      obtain ⟨he, hrest⟩ := List.pairwise_cons.mp (keysDiffer_iff.mp h)
      rw [get?, List.find?_cons]
      obtain rfl | hv := List.mem_cons.mp hv
      · rw [same_str]
        simp
      · have hne : same e.1 (.scalar (.str key) key) = false := by
          rw [Bool.eq_false_iff, ne_eq, same_str_iff]
          intro hkey
          obtain ⟨t, ht⟩ := exists_of_text? hkey
          have hne := he _ hv
          rw [ht, same_str, decide_eq_true rfl] at hne
          cases hne
        rw [hne]
        apply ih (keysDiffer_iff.mpr hrest) hv

/-- The items of a list that passes the check pass it. -/
theorem check_list {items : List Value} (h : check (.list items) = .ok ()) :
  ∀ v ∈ items, check v = .ok ()
  := by
  rw [check] at h
  induction items with
  | nil =>
      intro v hv
      cases hv
  | cons w rest ih =>
      obtain ⟨_, hw, hrest⟩ := bind_eq_ok_iff.mp h
      intro v hv
      obtain rfl | hv := List.mem_cons.mp hv
      · apply hw
      · apply ih hrest v hv

end Yaml.Value

namespace OpenApi

variable {key : String} {entries rest : List (Value × Value)} {e : Value × Value}

/-! ### What stands under a key -/

/-- What stands under a key stands there in the first entry or in a later one. -/
theorem get?_cons (key : String) (e : Value × Value) (rest : List (Value × Value)) :
  (Value.map (e :: rest)).get? key =
    if e.1.text? = some key then some e.2 else (Value.map rest).get? key
  := by
  rw [Value.get?, List.find?_cons]
  split
  case h_1 hsame => rw [if_pos (Value.same_str_iff.mp hsame), Option.map_some]
  case h_2 hsame =>
    rw [if_neg (fun h => by rw [Value.same_str_iff.mpr h] at hsame; cases hsame)]
    rfl

/-- A key that differs from all others is not among them. -/
theorem get?_eq_none {k : Value} (hk : k.text? = some key)
    (h : ∀ e ∈ rest, Value.same k e.1 = false) :
  (Value.map rest).get? key = none
  := by
  rw [Value.get?, Option.map_eq_none_iff, List.find?_eq_none]
  intro e he hsame
  obtain ⟨_, rfl⟩ := Value.exists_of_text? hk
  obtain ⟨_, ht⟩ := Value.exists_of_text? (Value.same_str_iff.mp hsame)
  have hne := h e he
  rw [ht, Value.same_str, decide_eq_true rfl] at hne
  cases hne

/-- What is read of the entries with a key is what is read of the value under the key. -/
theorem findSome?_eq {α : Type} (h : Value.keysDiffer entries = true) (key : String)
    (read : Value → Option α) :
  (entries.findSome? fun e => if e.1.text? = some key then read e.2 else none) =
    ((Value.map entries).get? key).bind read
  := by
  induction entries with
  | nil => rfl
  | cons e rest ih =>
      obtain ⟨he, hrest⟩ := List.pairwise_cons.mp (Value.keysDiffer_iff.mp h)
      have ih := ih (Value.keysDiffer_iff.mpr hrest)
      rw [List.findSome?_cons, get?_cons]
      by_cases hkey : e.1.text? = some key
      · rw [get?_eq_none hkey he] at ih
        rw [if_pos hkey, if_pos hkey, ih, Option.bind_some]
        cases read e.2 with
        | none => rfl
        | some a => rfl
      · rw [if_neg hkey, if_neg hkey, ih]

/-- The fields that are present are those under a text that are not null. -/
theorem present_eq_filterMap (entries : List (Value × Value)) :
  SchemaForm.present entries =
    entries.filterMap fun e => if isNull e.2 then none else e.1.text?.map (·, e.2)
  := by
  rw [SchemaForm.present]
  congr 1
  funext e
  obtain ⟨k, v⟩ := e
  cases v with
  | scalar s _ =>
      cases s with
      | null => cases k with | _ => rfl
      | bool | int | huge | float | infinity | nan | str | mistagged =>
          cases k with
          | scalar t _ => cases t with | _ => rfl
          | list | map | tagged => rfl
  | list | map | tagged =>
      cases k with
      | scalar t _ => cases t with | _ => rfl
      | list | map | tagged => rfl

/-- The field with a name is what stands under the name, unless it is null. -/
theorem field?_eq (h : Value.keysDiffer entries = true) (name : String) :
  field? entries name = ((Value.map entries).get? name).filter fun v => !isNull v
  := by
  have hbind : ((Value.map entries).get? name).filter (fun v => !isNull v) =
      ((Value.map entries).get? name).bind fun v => if isNull v then none else some v := by
    cases (Value.map entries).get? name with
    | none => rfl
    | some v => cases hv : isNull v with | _ => simp [hv]
  rw [hbind, ← findSome?_eq h, field?, present_eq_filterMap]
  clear h hbind
  induction entries with
  | nil => rfl
  | cons e rest ih =>
      rw [List.findSome?_cons, ← ih, List.filterMap_cons]
      cases hv : isNull e.2 with
      | true => simp
      | false =>
          cases hk : e.1.text? with
          | none => simp
          | some a =>
              by_cases ha : a = name
              · simp [ha]
              · simp [ha, List.lookup_cons, beq_false_of_ne (Ne.symm ha)]

/-- The text of the field with a key is what stands under the key, if that is a text. -/
theorem textOf?_eq (h : Value.keysDiffer entries = true) (key : String) :
  textOf? entries key = ((Value.map entries).get? key).bind Value.text?
  := by
  rw [← findSome?_eq h, textOf?]
  congr 1
  funext e
  obtain ⟨k, v⟩ := e
  cases k with
  | scalar t _ =>
      cases t with
      | str a =>
          cases v with
          | scalar s _ =>  cases s with | _ => simp [Value.text?]
          | list | map | tagged => simp [Value.text?]
      | null | bool | int | huge | float | infinity | nan | mistagged => rfl
  | list | map | tagged => rfl

/-- The text of a field is that of what is present under its key. -/
theorem textOf?_eq_bind_field? (h : Value.keysDiffer entries = true) (key : String) :
  textOf? entries key = (field? entries key).bind Value.text?
  := by
  rw [textOf?_eq h, field?_eq h]
  cases (Value.map entries).get? key with
  | none => rfl
  | some v =>
      match v with
      | .scalar .null _ => rfl
      | .scalar (.bool _) _ | .scalar (.int _) _ | .scalar (.huge _) _ | .scalar (.float _) _
      | .scalar (.infinity _) _ | .scalar .nan _ | .scalar (.str _) _ | .scalar .mistagged _
      | .list _ | .map _ | .tagged _ _ => rfl

/-! ### The form of an object -/

/-- What the value of a field is written as: nothing, if it says the same as its absence. -/
def Field.write? (f : Field) (v : Value) : Option (Option Json) :=
  if f.presence = .optional ∧ isNull v then some none
  else (f.shape.conform .strict v).map fun j =>
    if f.presence = .defaulted ∧ holdsNothing j then none else some j

/-- The member that an entry of an object comes to, where unknown keys are passed over. -/
def memberOf? (fields : List Field) (e : Value × Value) : Option (Option (String × Json)) :=
  (Reading.strict.fieldName? e.1).bind fun name =>
    match fields.find? (·.name = name) with
    | some f => (f.write? e.2).map fun j => j.map (name, ·)
    | none =>
      if !isPlain e.2 then none
      else if name.startsWith "x-" then e.2.toJson?.map fun j => some (name, j)
      else some none

variable {fields : List Field} {members : List (String × Json)} {m : String × Json}

/-- The entry of a field comes to what is written of its value. -/
theorem memberOf?_eq {f : Field} (hname : Reading.strict.fieldName? e.1 = some key)
    (hf : fields.find? (·.name = key) = some f) :
  memberOf? fields e = (f.write? e.2).map fun j => j.map (key, ·)
  := by
  rw [memberOf?, hname, Option.bind_some, hf]

/-- A JSON value under a key that is no field comes to a member or is passed over. -/
theorem isSome_memberOf? {text : String} {j : Json} (hf : fields.find? (·.name = key) = none) :
  (memberOf? fields (.scalar (.str key) text, Value.ofJson j)).isSome = true
  := by
  have hname : Reading.strict.fieldName? (.scalar (.str key) text) = some key := rfl
  rw [memberOf?, hname, Option.bind_some, hf]
  simp only [isPlain_ofJson, Value.toJson?_ofJson, Bool.not_true, Bool.false_eq_true, if_false]
  split_ifs <;> rfl

/-- The members of an object are those of its first entry and of the others. -/
theorem conformEntries_cons (fields : List Field) (e : Value × Value)
    (rest : List (Value × Value)) :
  conformEntries .strict fields .ignored (e :: rest) =
    (memberOf? fields e).bind fun m =>
      (conformEntries .strict fields .ignored rest).map fun members => m.toList ++ members
  := by
  obtain ⟨k, v⟩ := e
  rw [conformEntries, memberOf?]
  cases Reading.strict.fieldName? k with
  | none => rfl
  | some name =>
      simp only [Option.bind_eq_bind, Option.bind_some]
      cases fields.find? (·.name = name) with
      | none =>
          by_cases hplain : isPlain v = true
          · by_cases hx : name.startsWith "x-" = true
            · simp [hplain, hx, Option.map_eq_bind]
            · simp [hplain, hx, Option.map_eq_bind]
          · simp [hplain]
      | some f =>
          by_cases hnull : f.presence = .optional ∧ isNull v = true
          · simp [Field.write?, hnull, Option.map_eq_bind]
          · simp only [Field.write?, if_neg hnull]
            cases f.shape.conform .strict v with
            | none => rfl
            | some j =>
                by_cases hj : f.presence = .defaulted ∧ holdsNothing j = true
                · simp [hj, Option.map_eq_bind]
                · simp [hj, Option.map_eq_bind]

/-- What the members of an object come from. -/
theorem mem_of_conformEntries (h : conformEntries .strict fields .ignored entries = some members) :
  (∀ e ∈ entries, (memberOf? fields e).isSome = true) ∧
    ∀ m, m ∈ members ↔ ∃ e ∈ entries, memberOf? fields e = some (some m)
  := by
  induction entries generalizing members with
  | nil =>
      rw [conformEntries] at h
      cases h
      simp
  | cons e rest ih =>
      rw [conformEntries_cons] at h
      obtain ⟨o, ho, h⟩ := Option.bind_eq_some_iff.mp h
      obtain ⟨members, hmembers, rfl⟩ := Option.map_eq_some_iff.mp h
      obtain ⟨hrest, hmem⟩ := ih hmembers
      constructor
      · intro e' he'
        obtain rfl | he' := List.mem_cons.mp he'
        · rw [ho, Option.isSome_some]
        · apply hrest e' he'
      · intro m
        rw [List.mem_append, Option.mem_toList, hmem, List.exists_mem_cons_iff, ho, Option.some_inj]

/-- An object has a form if each of its entries has one. -/
theorem exists_of_memberOf? (h : ∀ e ∈ entries, (memberOf? fields e).isSome = true) :
  ∃ members, conformEntries .strict fields .ignored entries = some members
  := by
  induction entries with
  | nil =>
      use []
      rw [conformEntries]
  | cons e rest ih =>
      obtain ⟨o, ho⟩ := Option.isSome_iff_exists.mp (h e List.mem_cons_self)
      obtain ⟨members, hmembers⟩ := ih fun e' he' => h e' (List.mem_cons_of_mem _ he')
      use o.toList ++ members
      rw [conformEntries_cons, ho, hmembers]
      rfl

/-- Whether every field of a table is found under its name, and no name is a number. -/
def toldApart (fields : List Field) : Bool :=
  fields.all fun f =>
    fields.find? (·.name = f.name) = some f && !f.name.toList.all Char.isDigit

/-- The key of a member is a field or that of an extension. -/
theorem name_of_memberOf? {j : Json} (h : memberOf? fields e = some (some (key, j))) :
  Reading.strict.fieldName? e.1 = some key ∧
    ((∃ f, fields.find? (·.name = key) = some f ∧ f.write? e.2 = some (some j)) ∨
      fields.find? (·.name = key) = none ∧ key.startsWith "x-" = true)
  := by
  obtain ⟨name, hname, h⟩ := Option.bind_eq_some_iff.mp h
  cases hf : fields.find? (·.name = name) with
  | some f =>
      rw [hf] at h
      obtain ⟨o, hwrite, h⟩ := Option.map_eq_some_iff.mp h
      obtain ⟨j, rfl, h⟩ := Option.map_eq_some_iff.mp h
      cases h
      exact ⟨hname, .inl ⟨f, hf, hwrite⟩⟩
  | none =>
      rw [hf] at h
      simp only at h
      split_ifs at h with _ hx
      · obtain ⟨j, -, h⟩ := Option.map_eq_some_iff.mp h
        cases h
        exact ⟨hname, .inr ⟨hf, hx⟩⟩
      · cases h

/-- The key of a member is the text that is the key of its entry. -/
theorem key_of_memberOf? {j : Json} (hfields : toldApart fields = true)
    (h : memberOf? fields e = some (some (key, j))) :
  e.1.text? = some key
  := by
  obtain ⟨hname, hkey⟩ := name_of_memberOf? h
  -- a number is neither a field nor an extension
  have hword : key.toList.all Char.isDigit = false := by
    obtain ⟨f, hf, -⟩ | ⟨-, hx⟩ := hkey
    · have hall := List.all_eq_true.mp hfields f (List.mem_of_find?_eq_some hf)
      have hfound := List.find?_some hf
      rw [decide_eq_true_eq] at hfound
      rw [Bool.and_eq_true, hfound, Bool.not_eq_true'] at hall
      apply hall.2
    · obtain ⟨rest, hrest⟩ := String.startsWith_string_iff.mp hx
      rw [← hrest]
      rfl
  match e with
  | (.scalar (.str a) _, _) => exact hname
  | (.scalar (.int n) _, _) =>
      change (if 0 ≤ n then some (toString n.toNat) else none) = some key at hname
      split_ifs at hname
      cases hname
      have hdigits : (toString n.toNat).toList.all Char.isDigit = true := by
        rw [List.all_eq_true]
        intro c hc
        rw [Nat.toString_eq_repr, Nat.toList_repr] at hc
        apply Nat.isDigit_of_mem_toDigits (by decide) (by decide) hc
      rw [hdigits] at hword
      cases hword
  | (.scalar .null _, _) | (.scalar (.bool _) _, _) | (.scalar (.huge _) _, _)
  | (.scalar (.float _) _, _) | (.scalar (.infinity _) _, _) | (.scalar .nan _, _)
  | (.scalar .mistagged _, _) | (.list _, _) | (.map _, _) | (.tagged _ _, _) => cases hname

/-- No two members of an object have one key. -/
theorem nodup_of_conformEntries (hfields : toldApart fields = true)
    (hk : Value.keysDiffer entries = true)
    (h : conformEntries .strict fields .ignored entries = some members) :
  (members.map Prod.fst).Nodup
  := by
  induction entries generalizing members with
  | nil =>
      rw [conformEntries] at h
      cases h
      apply List.nodup_nil
  | cons e rest ih =>
      obtain ⟨he, hrest⟩ := List.pairwise_cons.mp (Value.keysDiffer_iff.mp hk)
      rw [conformEntries_cons] at h
      obtain ⟨o, ho, h⟩ := Option.bind_eq_some_iff.mp h
      obtain ⟨members, hmembers, rfl⟩ := Option.map_eq_some_iff.mp h
      have hnodup := ih (Value.keysDiffer_iff.mpr hrest) hmembers
      cases o with
      | none => apply hnodup
      | some m =>
          apply List.nodup_cons.mpr ⟨_, hnodup⟩
          intro hm
          obtain ⟨m', hm', hkey⟩ := List.mem_map.mp hm
          obtain ⟨e', he', hmember⟩ := ((mem_of_conformEntries hmembers).2 m').mp hm'
          obtain ⟨s, hs⟩ := Value.exists_of_text? (key_of_memberOf? hfields ho)
          obtain ⟨t, ht⟩ := Value.exists_of_text? (key_of_memberOf? hfields hmember)
          have hne := he e' he'
          rw [hs, ht, hkey, Value.same_str, decide_eq_true rfl] at hne
          cases hne

/-- Under the name of a field an object has what is written of the value there, if something
is. -/
theorem lookup_of_conformEntries (hfields : toldApart fields = true)
    (hk : Value.keysDiffer entries = true)
    (h : conformEntries .strict fields .ignored entries = some members) {f : Field}
    (hf : fields.find? (·.name = key) = some f) :
  members.lookup key = ((Value.map entries).get? key).bind fun v => (f.write? v).join
  := by
  obtain ⟨hall, hmem⟩ := mem_of_conformEntries h
  ext j
  constructor
  · intro hj
    obtain ⟨e, he, hmember⟩ := (hmem _).mp (Json.mem_of_lookup hj)
    obtain ⟨-, ⟨f', hf', hwrite⟩ | ⟨hnone, -⟩⟩ := name_of_memberOf? hmember
    · rw [hf] at hf'
      cases hf'
      obtain ⟨k, v⟩ := e
      obtain ⟨t, rfl⟩ := Value.exists_of_text? (key_of_memberOf? hfields hmember)
      rw [Value.get?_of_mem hk he, Option.bind_some, hwrite, Option.join_some]
    · rw [hf] at hnone
      cases hnone
  · intro hj
    obtain ⟨v, hv, hwrite⟩ := Option.bind_eq_some_iff.mp hj
    obtain ⟨text, hv⟩ := Value.exists_of_get? hv
    apply Json.lookup_of_mem (nodup_of_conformEntries hfields hk h)
    apply (hmem _).mpr ⟨_, hv, _⟩
    rw [memberOf?_eq rfl hf, Option.join_eq_some_iff.mp hwrite]
    rfl

/-- What is no field and no extension is not written. -/
theorem lookup_eq_none_of_conformEntries
    (h : conformEntries .strict fields .ignored entries = some members)
    (hf : fields.find? (·.name = key) = none) (hx : key.startsWith "x-" = false) :
  members.lookup key = none
  := by
  rw [Option.eq_none_iff_forall_not_mem]
  intro j hj
  obtain ⟨e, -, hmember⟩ := ((mem_of_conformEntries h).2 _).mp (Json.mem_of_lookup hj)
  obtain ⟨-, ⟨f, hf', -⟩ | ⟨-, hx'⟩⟩ := name_of_memberOf? hmember
  · rw [hf] at hf'
    cases hf'
  · rw [hx] at hx'
    cases hx'

/-- The entries of an object are those of a kind in which unknown keys are passed over: its keys
tell the fields of the kind, and its entries come to members. -/
structure OfKind (kind : Kind) (entries : List (Value × Value)) (names : List String)
    (fields : List Field) (members : List (String × Json)) : Prop where
  /-- The keys are names. -/
  read : entries.mapM (fun e => Reading.strict.fieldName? e.1) = some names
  /-- They tell the fields. -/
  told : kind.fields? names (textOf? entries) = some fields
  /-- The values conform to the fields. -/
  written : conformEntries .strict fields .ignored entries = some members
  /-- No field is missing. -/
  inOrder : fieldsInOrder fields names = true

/-- What an object has to hold to be of a kind, and what its form is then. -/
theorem conform_object_eq_some_iff {kind : Kind} {form : Json} (hothers : kind.others = .ignored) :
  (Shape.object kind).conform .strict (.map entries) = some form ↔
    ∃ names fields members, OfKind kind entries names fields members ∧
      .obj (settleMembers kind entries members) = form
  := by
  rw [Shape.conform]
  simp only [hothers, Option.bind_eq_bind, Option.bind_eq_some_iff,
    Option.ite_none_right_eq_some, Option.some_inj]
  constructor
  · rintro ⟨names, hnames, fields, hfields, members, hmembers, horder, hform⟩
    exact ⟨names, fields, members, ⟨hnames, hfields, hmembers, horder⟩, hform⟩
  · rintro ⟨names, fields, members, h, hform⟩
    exact ⟨names, h.read, fields, h.told, members, h.written, h.inOrder, hform⟩

/-- What stands under the name of a field is written. -/
theorem OfKind.isSome_write? {kind : Kind} {names : List String} {f : Field} {v : Value}
    (h : OfKind kind entries names fields members) (hf : fields.find? (·.name = key) = some f)
    (hv : (Value.map entries).get? key = some v) :
  (f.write? v).isSome = true
  := by
  obtain ⟨text, he⟩ := Value.exists_of_get? hv
  have hsome := (mem_of_conformEntries h.written).1 _ he
  rw [memberOf?_eq rfl hf, Option.isSome_map] at hsome
  apply hsome

/-- A name is that of an entry. -/
theorem OfKind.exists_of_name {kind : Kind} {names : List String} {name : String}
    (h : OfKind kind entries names fields members) (hname : name ∈ names) :
  ∃ e ∈ entries, Reading.strict.fieldName? e.1 = some name
  := by
  have hall : ∀ (es : List (Value × Value)) (names : List String),
      es.mapM (fun e => Reading.strict.fieldName? e.1) = some names → name ∈ names →
      ∃ e ∈ es, Reading.strict.fieldName? e.1 = some name := by
    intro es
    induction es with
    | nil =>
        rintro _ ⟨⟩ hname
        cases hname
    | cons e rest ih =>
        intro names hnames hname
        rw [List.mapM_cons] at hnames
        obtain ⟨n, hn, hnames⟩ := Option.bind_eq_some_iff.mp hnames
        obtain ⟨ns, hns, hnames⟩ := Option.bind_eq_some_iff.mp hnames
        cases hnames
        obtain rfl | hname := List.mem_cons.mp hname
        · exact ⟨e, List.mem_cons_self, hn⟩
        · obtain ⟨e', he', heq⟩ := ih ns hns hname
          exact ⟨e', List.mem_cons_of_mem _ he', heq⟩
  apply hall _ _ h.read hname

/-- A field that has to be there comes to a member. -/
theorem OfKind.exists_of_required {kind : Kind} {names : List String} {f : Field}
    (h : OfKind kind entries names fields members) (hapart : toldApart fields = true)
    (hf : f ∈ fields) (hrequired : f.presence = .required) :
  ∃ j, (f.name, j) ∈ members
  := by
  have horder := List.all_eq_true.mp h.inOrder f hf
  simp only [hrequired, Bool.and_eq_true, ne_eq, not_true, decide_false, Bool.false_or,
    List.contains_iff_mem] at horder
  obtain ⟨e, he, hname⟩ := h.exists_of_name horder.1
  obtain ⟨hall, hmem⟩ := mem_of_conformEntries h.written
  have hfound := List.all_eq_true.mp hapart f hf
  rw [Bool.and_eq_true, decide_eq_true_eq] at hfound
  obtain ⟨o, ho⟩ := Option.isSome_iff_exists.mp (hall e he)
  have hmember := ho
  rw [memberOf?_eq hname hfound.1, Field.write?, hrequired] at ho
  simp only [reduceCtorEq, false_and, if_false, Option.map_map] at ho
  obtain ⟨j, -, rfl⟩ := Option.map_eq_some_iff.mp ho
  use j
  apply (hmem _).mpr ⟨e, he, hmember⟩

end OpenApi

end ApiIntake
