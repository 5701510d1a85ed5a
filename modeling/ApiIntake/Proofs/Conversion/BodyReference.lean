import ApiIntake.Proofs.OpenApi.Lasting
import ApiIntake.Proofs.OpenApi.Resolution

/-!
# Bodies by reference

A reference to the body of a request leads to the body as it is read of its JSON form, where the
members of every object ascend by key.  An operation has the same arguments by way of the
reference if this order makes no difference to the media type that counts, and if the schema
there lasts (`argumentsOfOperation_of_reference`).
-/

namespace ApiIntake

open ApiIntake.OpenApi
open ApiIntake.Yaml (Value Scalar)

/-! ### The media type that counts -/

/-- What stands under the media type that counts: `application/json` itself, else the first media
type of JSON. -/
def jsonMedia? {α : Type} (content : List (String × α)) : Option α :=
  match content.lookup "application/json" with
  | some a => some a
  | none => (content.find? fun entry => isJsonType entry.1).map (·.2)

/-- Whether the same media type counts in ascending order: `application/json` itself is there, or
the first media type of JSON comes before all others of JSON. -/
def mediaInOrder (mediaTypes : List String) : Bool :=
  mediaTypes.contains "application/json" ||
    (mediaTypes.find? isJsonType).all fun m => mediaTypes.all fun n => !isJsonType n || m ≤ n

section

variable {α β : Type} {content content' : List (String × α)} {mediaTypes : List String}

/-- Of tables with the same keys and related things, the same media type counts. -/
theorem rel_jsonMedia? {R : α → β → Prop} {table : List (String × β)}
    (h : List.Forall₂ (fun e e' => e.1 = e'.1 ∧ R e.2 e'.2) content table) :
  Option.Rel R (jsonMedia? content) (jsonMedia? table)
  := by
  have hlookup (key : String) : Option.Rel R (content.lookup key) (table.lookup key) := by
    induction h with
    | nil => apply Option.Rel.none
    | @cons e e' rest rest' he _ ih =>
        rw [List.lookup_cons, List.lookup_cons, he.1]
        cases key == e'.1 with
        | true => apply Option.Rel.some he.2
        | false => apply ih
  have hfind : Option.Rel R ((content.find? fun entry => isJsonType entry.1).map (·.2))
      ((table.find? fun entry => isJsonType entry.1).map (·.2)) := by
    clear hlookup
    induction h with
    | nil => apply Option.Rel.none
    | @cons e e' rest rest' he _ ih =>
        rw [List.find?_cons, List.find?_cons, he.1]
        cases isJsonType e'.1 with
        | true => apply Option.Rel.some he.2
        | false => apply ih
  have hexact := hlookup "application/json"
  rw [jsonMedia?, jsonMedia?]
  generalize content.lookup "application/json" = a? at hexact ⊢
  generalize table.lookup "application/json" = b? at hexact ⊢
  cases hexact with
  | some hR => apply Option.Rel.some hR
  | none => apply hfind

/-- The schema of a body is that of the media type that counts. -/
theorem jsonBodySchema?_eq (body : RequestBody) :
  jsonBodySchema? body = (jsonMedia? body.content).join
  := by
  rw [jsonBodySchema?, jsonMedia?]
  cases body.content.lookup "application/json" with
  | some schema => rfl
  | none =>
      cases body.content.find? fun entry => isJsonType entry.1 with
      | none => rfl
      | some entry => rfl

/-- The same media type counts whatever is made of what stands there. -/
theorem jsonMedia?_map (f : α → β) (content : List (String × α)) :
  jsonMedia? (content.map fun e => (e.1, f e.2)) = (jsonMedia? content).map f
  := by
  have hlookup : (content.map fun e => (e.1, f e.2)).lookup "application/json" =
      (content.lookup "application/json").map f := by
    induction content with
    | nil => rfl
    | cons e rest ih =>
        rw [List.map_cons, List.lookup_cons, List.lookup_cons, ih]
        cases "application/json" == e.1 with
        | true => rfl
        | false => rfl
  rw [jsonMedia?, jsonMedia?, hlookup, List.find?_map]
  cases content.lookup "application/json" with
  | some a => rfl
  | none =>
      change ((content.find? fun entry => isJsonType entry.1).map _).map _ = _
      rw [Option.map_map, Option.map_map]
      rfl

/-- What stands under the media type that counts stands there. -/
theorem mem_of_jsonMedia? {a : α} (h : jsonMedia? content = some a) :
  ∃ mediaType, (mediaType, a) ∈ content
  := by
  rw [jsonMedia?] at h
  split at h
  case h_1 hlookup =>
    cases h
    exact ⟨_, Json.mem_of_lookup hlookup⟩
  case h_2 =>
    obtain ⟨e, he, rfl⟩ := Option.map_eq_some_iff.mp h
    exact ⟨e.1, List.mem_of_find?_eq_some he⟩

/-- The first media type of JSON comes before all others in ascending order. -/
theorem mediaInOrder_of_pairwise (h : mediaTypes.Pairwise (· < ·)) :
  mediaInOrder mediaTypes = true
  := by
  rw [mediaInOrder, Bool.or_eq_true, Option.all_eq_true]
  right
  intro m hm
  rw [List.all_eq_true]
  intro n hn
  obtain ⟨-, before, rest, rfl, hbefore⟩ := List.find?_eq_some_iff_append.mp hm
  rw [Bool.or_eq_true, decide_eq_true_eq]
  obtain hn | hn := List.mem_append.mp hn
  · exact .inl (hbefore n hn)
  · right
    obtain rfl | hn := List.mem_cons.mp hn
    · apply String.le_refl
    · have hrest := (List.pairwise_append.mp h).2.1
      apply Std.le_of_lt ((List.pairwise_cons.mp hrest).1 n hn)

/-- Without `application/json` itself, the first media type of JSON is the least one. -/
theorem le_of_mediaInOrder (h : mediaInOrder (content.map Prod.fst) = true)
    (hnone : content.lookup "application/json" = none) {e e' : String × α}
    (he : (content.find? fun entry => isJsonType entry.1) = some e) (he' : e' ∈ content)
    (hjson : isJsonType e'.1 = true) :
  e.1 ≤ e'.1
  := by
  have hmissing : (content.map Prod.fst).contains "application/json" = false := by
    rw [Bool.eq_false_iff, ne_eq, List.contains_iff_mem]
    intro hmem
    obtain ⟨d, hd, heq⟩ := List.mem_map.mp hmem
    have hne := List.lookup_eq_none_iff.mp hnone d hd
    rw [bne_iff_ne, heq] at hne
    apply hne rfl
  rw [mediaInOrder, hmissing, Bool.false_or, List.find?_map, Option.all_map,
    Option.all_eq_true] at h
  have hall := List.all_eq_true.mp (h e he) e'.1 (List.mem_map_of_mem he')
  rw [hjson, Bool.not_true, Bool.false_or, decide_eq_true_eq] at hall
  apply hall

/-- The same media type counts in any order that has the first media type of JSON before the
others. -/
theorem jsonMedia?_congr (hnodup : (content.map Prod.fst).Nodup) (hp : content.Perm content')
    (h : mediaInOrder (content.map Prod.fst) = true)
    (h' : mediaInOrder (content'.map Prod.fst) = true) :
  jsonMedia? content = jsonMedia? content'
  := by
  rw [jsonMedia?, jsonMedia?, Json.lookup_congr hnodup hp]
  cases hlookup : content'.lookup "application/json" with
  | some a => rfl
  | none =>
      have hnone := hlookup
      rw [← Json.lookup_congr hnodup hp] at hnone
      cases he : content.find? fun entry => isJsonType entry.1 with
      | none =>
          have he' : (content'.find? fun entry => isJsonType entry.1) = none := by
            rw [List.find?_eq_none] at he ⊢
            intro e' hmem
            apply he e' (hp.mem_iff.mpr hmem)
          rw [he']
      | some e =>
          have hmem := List.mem_of_find?_eq_some he
          have hjson : isJsonType e.1 = true := by simpa using List.find?_some he
          obtain ⟨e', he'⟩ := Option.isSome_iff_exists.mp
            (List.find?_isSome.mpr ⟨e, hp.mem_iff.mp hmem, hjson⟩ :
              (content'.find? fun entry => isJsonType entry.1).isSome = true)
          have hjson' : isJsonType e'.1 = true := by simpa using List.find?_some he'
          have hmem' := hp.mem_iff.mpr (List.mem_of_find?_eq_some he')
          -- each of the two comes before the other one
          have hkey : e.1 = e'.1 := by
            apply Std.le_antisymm
            · apply le_of_mediaInOrder h hnone he hmem' hjson'
            · apply le_of_mediaInOrder h' hlookup he' (hp.mem_iff.mp hmem) hjson
          have ha : content.lookup e.1 = some e.2 := Json.lookup_of_mem hnodup hmem
          have ha' : content.lookup e.1 = some e'.2 := by
            rw [hkey]
            apply Json.lookup_of_mem hnodup hmem'
          rw [ha] at ha'
          rw [he']
          apply ha'

end

/-! ### A body that has been written -/

namespace OpenApi

variable {kind : Kind} {entries : List (Value × Value)} {names : List String}
  {fields : List Field} {members : List (String × Json)} {key : String} {f : Field} {v : Value}
  {body : RequestBody} {form : Json}

/-- Under the name of a field, the form of an object that is no schema has what is written of the
value there. -/
theorem OfKind.get?_rewritten (hof : OfKind kind entries names fields members)
    (hkind : kind ∈ bodyKinds) (hk : Value.keysDiffer entries = true)
    (hf : fields.find? (·.name = key) = some f) :
  (Value.map (Value.ofJsonMembers (rewritten members))).get? key =
    ((Value.map entries).get? key).bind fun v =>
      (f.write? v).join.map fun j => Value.ofJson j.sorted
  := by
  rw [OpenApi.get?_rewritten (hof.nodup hkind hk), hof.lookup_eq hkind hk hf]
  cases (Value.map entries).get? key with
  | none => rfl
  | some v => rfl

/-- The keys of the form of an object that is no schema differ. -/
theorem OfKind.keysDiffer_rewritten (hof : OfKind kind entries names fields members)
    (hkind : kind ∈ bodyKinds) (hk : Value.keysDiffer entries = true) :
  Value.keysDiffer (Value.ofJsonMembers (rewritten members)) = true
  := by
  apply OpenApi.keysDiffer_rewritten (hof.nodup hkind hk)

/-- What is written of an optional text is the text. -/
theorem text?_of_write? (key : String) (v : Value) :
  (((may key .text).write? v).join.map fun j => Value.ofJson j.sorted).bind Value.text? = v.text?
  := by
  match v with
  | .scalar .null _ | .scalar (.bool _) _ | .scalar (.int _) _ | .scalar (.huge _) _
  | .scalar (.float _) _ | .scalar (.infinity _) _ | .scalar .nan _ | .scalar (.str _) _
  | .scalar .mistagged _ | .list _ | .map _ | .tagged _ _ => rfl

/-- Whether a value is `true`. -/
def isTrue : Value → Bool
  | .scalar (.bool b) _ => b
  | _ => false

/-- The flag of an object is that of what stands under its key. -/
theorem flagOf_eq (hk : Value.keysDiffer entries = true) (key : String) :
  flagOf entries key = ((Value.map entries).get? key).any isTrue
  := by
  rw [flagOf, field?_eq hk]
  cases (Value.map entries).get? key with
  | none => rfl
  | some v =>
      match v with
      | .scalar .null _ | .scalar (.bool _) _ | .scalar (.int _) _ | .scalar (.huge _) _
      | .scalar (.float _) _ | .scalar (.infinity _) _ | .scalar .nan _ | .scalar (.str _) _
      | .scalar .mistagged _ | .list _ | .map _ | .tagged _ _ => rfl

/-- What is written of a flag is `true` if the flag is. -/
theorem isTrue_of_write? (key : String) (v : Value) :
  ((orEmpty key .flag).write? v).join.any (fun j => isTrue (Value.ofJson j.sorted)) = isTrue v
  := by
  match v with
  | .scalar (.bool b) _ => cases b with | _ => rfl
  | .scalar .null _ | .scalar (.int _) _ | .scalar (.huge _) _ | .scalar (.float _) _
  | .scalar (.infinity _) _ | .scalar .nan _ | .scalar (.str _) _ | .scalar .mistagged _
  | .list _ | .map _ | .tagged _ _ => rfl

/-- The fields of a request body. -/
theorem find?_of_requestBody (hof : OfKind .requestBody entries names fields members) :
  fields.find? (·.name = "description") = some (may "description" .text) ∧
    fields.find? (·.name = "required") = some (orEmpty "required" .flag) ∧
    fields.find? (·.name = "content") = some (orEmpty "content" (.table (.object .mediaType))) ∧
    fields.find? (·.name = "$ref") = none
  := by
  cases hof.told
  decide +kernel

/-- The entries of a table under texts. -/
def named (table : List (Value × Value)) : List (String × Value) :=
  table.filterMap fun e => e.1.text?.map fun name => (name, e.2)

/-- The media types of a body, and what stands under each of them. -/
def mediaTypesOf (v : Value) : List (String × Value) :=
  named (((field? (entriesOf v) "content").map entriesOf).getD [])

/-- The schema of a body, as it is spelled out under the media type that counts. -/
def bodySchemaOf? (v : Value) : Option Value :=
  (jsonMedia? (mediaTypesOf v)).bind fun m => field? (entriesOf m) "schema"

/-- A body has the schemas that stand under its media types. -/
theorem content_ofValue (v : Value) :
  (RequestBody.ofValue v).content =
    (mediaTypesOf v).map fun e => (e.1, (field? (entriesOf e.2) "schema").map Schema.ofValue)
  := by
  rw [RequestBody.ofValue, mediaTypesOf, named, List.map_filterMap]
  apply congrArg₂ _ _ rfl
  funext e
  obtain ⟨k, w⟩ := e
  match k with
  | .scalar .null _ | .scalar (.bool _) _ | .scalar (.int _) _ | .scalar (.huge _) _
  | .scalar (.float _) _ | .scalar (.infinity _) _ | .scalar .nan _ | .scalar (.str _) _
  | .scalar .mistagged _ | .list _ | .map _ | .tagged _ _ => rfl

/-- The schema of a body is the one that is spelled out. -/
theorem jsonBodySchema?_ofValue (v : Value) :
  jsonBodySchema? (RequestBody.ofValue v) = (bodySchemaOf? v).map Schema.ofValue
  := by
  rw [jsonBodySchema?_eq, content_ofValue, bodySchemaOf?]
  have hmap := jsonMedia?_map
    (fun m => (field? (entriesOf m) "schema").map Schema.ofValue) (mediaTypesOf v)
  rw [hmap]
  cases jsonMedia? (mediaTypesOf v) with
  | none => rfl
  | some m => rfl

/-- The members of an object are under texts. -/
theorem named_ofJsonMembers (members : List (String × Json)) :
  named (Value.ofJsonMembers members) = members.map fun m => (m.1, Value.ofJson m.2)
  := by
  induction members with
  | nil => rfl
  | cons m rest ih =>
      rw [List.map_cons, ← ih]
      rfl

/-- The entries of a table that conforms are under texts. -/
theorem forall₂_named {item : Shape} {table : List (Value × Value)} {forms : List (String × Json)}
    (h : List.Forall₂ (fun e m => e.1.text? = some m.1 ∧
      item.conform .strict e.2 = some m.2) table forms) :
  List.Forall₂ (fun e m => e.1 = m.1 ∧ item.conform .strict e.2 = some m.2) (named table) forms
  := by
  induction h with
  | nil => apply List.Forall₂.nil
  | @cons e m rest forms he _ ih =>
      rw [named, List.filterMap_cons, he.1]
      apply List.Forall₂.cons ⟨rfl, he.2⟩ ih

/-- What stands under a media type of a body passes the check if the body does. -/
theorem check_of_mem_mediaTypesOf {mediaType : String} {m : Value} (hcheck : v.check = .ok ())
    (hk : Value.keysDiffer (entriesOf v) = true) (hm : (mediaType, m) ∈ mediaTypesOf v) :
  m.check = .ok ()
  := by
  obtain ⟨e, he, heq⟩ := List.mem_filterMap.mp hm
  obtain ⟨_, -, heq⟩ := Option.map_eq_some_iff.mp heq
  cases heq
  cases hv : field? (entriesOf v) "content" with
  | none =>
      rw [hv] at he
      cases he
  | some w =>
      rw [hv, Option.map_some, Option.getD_some] at he
      have hw : w.check = .ok () := by
        cases v with
        | map entries => apply Value.check_get? hcheck (get?_of_field? hk hv)
        | scalar | list | tagged => cases hv
      cases w with
      | map table => apply (Value.check_map hw).2 e he
      | scalar | list | tagged => cases he

/-- The media types of a body are those of its form, where they stand in ascending order. -/
theorem mediaTypes_again (hof : OfKind .requestBody entries names fields members)
    (hcheck : (Value.map entries).check = .ok ()) :
  ∃ forms, List.Forall₂ (fun e m => e.1 = m.1 ∧
        (Shape.object .mediaType).conform .strict e.2 = some m.2)
      (mediaTypesOf (.map entries)) forms ∧
    (forms.map Prod.fst).Nodup ∧
    mediaTypesOf (.map (Value.ofJsonMembers (rewritten members))) =
      (rewritten forms).map fun m => (m.1, Value.ofJson m.2)
  := by
  obtain ⟨hk, -⟩ := Value.check_map hcheck
  obtain ⟨-, -, hf, -⟩ := find?_of_requestBody hof
  have hget := hof.get?_rewritten (by decide) hk hf
  rw [mediaTypesOf, mediaTypesOf, entriesOf, entriesOf, field?_eq hk,
    field?_eq (hof.keysDiffer_rewritten (by decide) hk), hget]
  cases hv : (Value.map entries).get? "content" with
  | none => exact ⟨[], .nil, List.nodup_nil, rfl⟩
  | some v =>
      have hsome := hof.isSome_write? hf hv
      rw [Field.write?, if_neg (by rintro ⟨⟨⟩, -⟩), Option.isSome_map] at hsome
      obtain ⟨j, hj⟩ := Option.isSome_iff_exists.mp hsome
      obtain ⟨table, forms, rfl, rfl, hforms⟩ := exists_of_conform_table hj
      use forms, forall₂_named hforms,
        nodup_of_table (Value.check_map (Value.check_get? hcheck hv)).1 hforms
      rw [Option.bind_some, Field.write?, if_neg (by rintro ⟨⟨⟩, -⟩), hj]
      cases forms with
      | nil => rfl
      | cons m rest =>
          change named (entriesOf (Value.ofJson (Json.obj (m :: rest)).sorted)) = _
          rw [ofJson_sorted_obj, entriesOf, named_ofJsonMembers]

/-- The schema of a media type, if it has one, has its form in the form of the media type. -/
theorem schema_again (hof : OfKind .mediaType entries names fields members)
    (hk : Value.keysDiffer entries = true) :
  Option.Rel (fun w w' => ∃ form, (Shape.refOr .schema).conform .strict w = some form ∧
      w' = Value.ofJson form.sorted)
    (field? entries "schema") (field? (Value.ofJsonMembers (rewritten members)) "schema")
  := by
  have hf : fields.find? (·.name = "schema") = some (may "schema" (.refOr .schema)) := by
    cases hof.told
    decide +kernel
  have hget := hof.get?_rewritten (by decide) hk hf
  rw [field?_eq hk, field?_eq (hof.keysDiffer_rewritten (by decide) hk), hget]
  cases hv : (Value.map entries).get? "schema" with
  | none => apply Option.Rel.none
  | some v =>
      rw [Option.bind_some, Field.write?]
      cases hnull : isNull v with
      | true =>
          rw [if_pos ⟨rfl, rfl⟩, Option.filter_some, hnull]
          apply Option.Rel.none
      | false =>
          have hsome := hof.isSome_write? hf hv
          rw [Field.write?, if_neg (by simp [hnull]), Option.isSome_map] at hsome
          obtain ⟨j, hj⟩ := Option.isSome_iff_exists.mp hsome
          rw [if_neg (by simp), hj]
          obtain ⟨_, ms, -, rfl⟩ := exists_of_conform_refOr hj
          rw [Option.filter_some, hnull]
          apply Option.Rel.some ⟨_, hj, rfl⟩

/-- The schema of a body, if it has one, has its form in the form of the body, if the same media
type counts there. -/
theorem bodySchema_again (hof : OfKind .requestBody entries names fields members)
    (hcheck : (Value.map entries).check = .ok ())
    (hmedia : mediaInOrder ((mediaTypesOf (.map entries)).map Prod.fst) = true) :
  Option.Rel (fun w w' => w.check = .ok () ∧ ∃ form,
      (Shape.refOr .schema).conform .strict w = some form ∧ w' = Value.ofJson form.sorted)
    (bodySchemaOf? (.map entries))
    (bodySchemaOf? (.map (Value.ofJsonMembers (rewritten members))))
  := by
  obtain ⟨forms, hforms, hnodup, hagain⟩ := mediaTypes_again hof hcheck
  have hkeys : (mediaTypesOf (.map entries)).map Prod.fst = forms.map Prod.fst :=
    map_fst_eq_iff.mpr (hforms.imp fun _ _ h => h.1)
  have hsame : jsonMedia? (rewritten forms) = (jsonMedia? forms).map Json.sorted := by
    rw [← jsonMedia?_map, ← Json.sortedValues_eq_map]
    rw [← Json.map_fst_sortedValues] at hnodup hkeys
    have hperm := Json.sortMembers_perm hnodup
    apply jsonMedia?_congr ((hperm.map Prod.fst).nodup_iff.mpr hnodup) hperm
    · apply mediaInOrder_of_pairwise
      apply List.pairwise_map.mpr (Json.ascending_sortMembers _)
    · rw [← hkeys]
      apply hmedia
  rw [bodySchemaOf?, bodySchemaOf?, hagain, jsonMedia?_map, hsame, Option.map_map]
  have hrel := rel_jsonMedia?
    (R := fun m j => (Shape.object .mediaType).conform .strict m = some j) hforms
  have hmem {m : Value} (hm : jsonMedia? (mediaTypesOf (.map entries)) = some m) :
      m.check = .ok () := by
    obtain ⟨mediaType, hm⟩ := mem_of_jsonMedia? hm
    apply check_of_mem_mediaTypesOf hcheck (Value.check_map hcheck).1 hm
  generalize jsonMedia? (mediaTypesOf (.map entries)) = m? at hrel hmem ⊢
  generalize jsonMedia? forms = j? at hrel ⊢
  cases hrel with
  | none => apply Option.Rel.none
  | @some m j hconform =>
      have hm := hmem rfl
      cases m with
      | map es =>
          obtain ⟨_, _, ms, hof', rfl⟩ := (conform_object_eq_some_iff rfl).mp hconform
          obtain ⟨hk, -⟩ := Value.check_map hm
          have hschema := schema_again hof' hk
          rw [settleMembers_of_ne (by rintro ⟨⟩)]
          change Option.Rel _ (field? es "schema")
            (field? (entriesOf (Value.ofJson (Json.obj ms).sorted)) "schema")
          rw [ofJson_sorted_obj, entriesOf]
          have hpart {w : Value} (hw : field? es "schema" = some w) : w.check = .ok () :=
            Value.check_get? hm (get?_of_field? hk hw)
          generalize field? es "schema" = w? at hschema hpart ⊢
          generalize field? (Value.ofJsonMembers (rewritten ms)) "schema" = w'? at hschema ⊢
          cases hschema with
          | none => apply Option.Rel.none
          | some hform => apply Option.Rel.some ⟨hpart rfl, hform⟩
      | scalar | list | tagged => cases hconform

/-- A body has the same arguments as its form, if the same media type counts there and the schema
lasts. -/
theorem sameArguments_again (r : RefScope) (hof : OfKind .requestBody entries names fields members)
    (hcheck : (Value.map entries).check = .ok ())
    (hmedia : mediaInOrder ((mediaTypesOf (.map entries)).map Prod.fst) = true)
    (hlast : ∀ w, bodySchemaOf? (.map entries) = some w → w.Lasting) :
  SameArguments (argumentsOfBody r (RequestBody.ofValue (.map entries)))
    (argumentsOfBody r
      (RequestBody.ofValue (.map (Value.ofJsonMembers (rewritten members)))))
  := by
  obtain ⟨hk, -⟩ := Value.check_map hcheck
  have hk' := hof.keysDiffer_rewritten (by decide) hk
  obtain ⟨hdescription, hrequired, -, -⟩ := find?_of_requestBody hof
  have hrel := bodySchema_again hof hcheck hmedia
  have hschema := jsonBodySchema?_ofValue (.map entries)
  have hschema' := jsonBodySchema?_ofValue (.map (Value.ofJsonMembers (rewritten members)))
  generalize bodySchemaOf? (.map entries) = w? at hrel hlast hschema
  generalize bodySchemaOf? (.map (Value.ofJsonMembers (rewritten members))) = w'? at hrel hschema'
  cases hrel with
  | none =>
      rw [argumentsOfBody, argumentsOfBody, hschema, hschema']
      apply SameArguments.made (List.Perm.refl [])
  | @some w w' hw =>
      obtain ⟨hw, form, hform, rfl⟩ := hw
      apply SameArguments.argumentsOfBody _ _ hschema hschema'
        ((hlast w rfl).reordered form hw hform)
      · change textOf? (Value.ofJsonMembers (rewritten members)) "description" =
          textOf? entries "description"
        rw [textOf?_eq hk, textOf?_eq hk', hof.get?_rewritten (by decide) hk hdescription]
        cases (Value.map entries).get? "description" with
        | none => rfl
        | some v => apply text?_of_write?
      · change flagOf (Value.ofJsonMembers (rewritten members)) "required" =
          flagOf entries "required"
        rw [flagOf_eq hk, flagOf_eq hk', hof.get?_rewritten (by decide) hk hrequired]
        cases (Value.map entries).get? "required" with
        | none => rfl
        | some v =>
            rw [Option.bind_some, Option.any_map, Option.any_some]
            apply isTrue_of_write?

/-- A body in the place of which a reference may stand is an object, and its form has the members
of that object. -/
theorem exists_of_decode? (h : RequestBody.decode? v = some (.inline body))
    (hform : (Shape.refOr .requestBody).conform .strict v = some form) :
  ∃ entries names fields members, v = .map entries ∧ body = RequestBody.ofValue (.map entries) ∧
    OfKind .requestBody entries names fields members ∧ form = .obj members
  := by
  rw [RequestBody.decode?, decodeRef?, hform, Option.map_some, Option.some_inj, RefOr.ofValue] at h
  obtain ⟨entries, _, rfl, -⟩ := exists_of_conform_refOr hform
  rw [conform_refOr_map] at hform
  obtain ⟨-, hform⟩ := Option.ite_none_right_eq_some.mp hform
  rw [entriesOf] at h
  cases hr : textOf? entries "$ref" with
  | some target =>
      rw [hr] at h
      cases h
  | none =>
      rw [hr] at h hform
      cases h
      obtain ⟨names, fields, members, hof, rfl⟩ := (conform_object_eq_some_iff rfl).mp hform
      rw [settleMembers_of_ne (by rintro ⟨⟩)]
      exact ⟨entries, names, fields, members, rfl, rfl, hof, rfl⟩

/-- A reference to the form of a body leads to what is read of the form. -/
theorem resolve_of_points {r : RefScope} {target : String} (hcheck : v.check = .ok ())
    (h : RequestBody.decode? v = some (.inline body))
    (hform : (Shape.refOr .requestBody).conform .strict v = some form)
    (hpoints : r.Points target form.sorted) :
  r.resolve RequestBody.decode? (.ref target) =
    .ok (RequestBody.ofValue (Value.ofJson form.sorted))
  := by
  obtain hagain | ⟨⟨⟩, -⟩ := conform_again v _ _ hcheck rfl hform
  obtain ⟨form', hform'⟩ := Option.isSome_iff_exists.mp hagain
  obtain ⟨entries, names, fields, members, rfl, -, hof, rfl⟩ := exists_of_decode? h hform
  have href : refText? (Json.obj members).sorted = none := by
    obtain ⟨hk, -⟩ := Value.check_map hcheck
    obtain ⟨-, -, -, hnone⟩ := find?_of_requestBody hof
    have hk' := hof.keysDiffer_rewritten (by decide) hk
    rw [refText?, ofJson_sorted_obj, entriesOf, textOf?_eq hk',
      OpenApi.get?_rewritten (hof.nodup (by decide) hk),
      lookup_eq_none_of_conformEntries hof.written hnone (by decide +kernel)]
    rfl
  rw [conform_refOr_of_none href] at hform'
  apply RefScope.resolve_eq_ok_iff.mpr ⟨[target], .through _ .here⟩
  apply RefScope.follow_of_reads hpoints (.inline href hform')

end OpenApi

/-! ### The same arguments -/

/-- By a reference to the JSON form of its body, where the members of every object ascend, an
operation has the same arguments as with the body spelled out, but for their order, or fails in
both cases: if the media type that counts is the same in ascending order, and the schema there
lasts. -/
theorem argumentsOfOperation_of_reference (r : RefScope) (common : List (RefOr Parameter))
    (op : Operation) {v : Value} {body : RequestBody} {form : Json} {target : String}
    (hcheck : v.check = .ok ()) (hbody : RequestBody.decode? v = some (.inline body))
    (hform : (Shape.refOr .requestBody).conform .strict v = some form)
    (hpoints : r.Points target form.sorted)
    (hmedia : mediaInOrder (body.content.map Prod.fst) = true)
    (hlast : ∀ w, bodySchemaOf? v = some w → w.Lasting) :
  SameArguments (argumentsOfOperation r common { op with requestBody := some (.inline body) })
    (argumentsOfOperation r common { op with requestBody := some (.ref target) })
  := by
  have href := resolve_of_points hcheck hbody hform hpoints
  obtain ⟨entries, names, fields, members, rfl, rfl, hof, rfl⟩ := exists_of_decode? hbody hform
  rw [content_ofValue, List.map_map] at hmedia
  rw [ofJson_sorted_obj] at href
  have hsame := sameArguments_again r hof hcheck hmedia hlast
  rw [argumentsOfOperation, argumentsOfOperation]
  apply SameArguments.bind
  intro parameters
  apply SameArguments.bind
  intro args
  simp only [resolve_inline, href]
  apply hsame.addBody

/-- The form of a schema of objects with some properties of one schema. -/
def objectForm (schema : Json) (names : List String) : Json :=
  .obj [("type", .str "object"), ("properties", .obj (names.map fun name => (name, schema)))]

/-- The form of a body with such a schema for each of some media types. -/
def bodyForm (schema : Json) (media : List (String × List String)) : Json :=
  .obj
    [("content", .obj (media.map fun m => (m.1, .obj [("schema", objectForm schema m.2)])))]

/-- A document in which a reference finds a body. -/
def bodyScope (form : Json) : RefScope where
  root := .obj [("body", form.sorted)]

/-- An operation with a body. -/
def withBody (body : RefOr RequestBody) : Operation where
  operationId := none
  summary := none
  description := none
  parameters := []
  requestBody := some body

/-- A schema of objects lasts if that of their properties does. -/
theorem lasting_objectForm {schema : Json} (h : (Value.ofJson schema).Lasting)
    (names : List String) :
  (Value.ofJson (objectForm schema names)).Lasting
  := by
  apply Value.Lasting.schema
  · rintro w ⟨⟩
  · rintro ⟨⟩
  · intro w hw
    cases hw with
    | items _ form | negated _ form => cases form
    | @part _ how _ _ _ form => cases how with | _ => cases form
    | @property _ table name text _ _ _ htable hw =>
        cases htable
        rw [Value.ofJsonMembers_eq_map] at hw
        obtain ⟨m, hm, heq⟩ := List.mem_map.mp hw
        obtain ⟨name, -, rfl⟩ := List.mem_map.mp hm
        cases heq
        apply h

/-- A schema of no particular form with no choices. -/
def unchosen : Json := .obj [("enum", .arr []), ("minLength", .int 1)]

/-- That schema is written without the choices, and is of no particular form still. -/
theorem lasting_unchosen :
  (Value.ofJson unchosen).Lasting
  := by
  apply Value.Lasting.schema
  · rintro w ⟨⟩
  · rintro - form hform
    cases hform
    decide +kernel
  · intro w hw
    cases hw with
    | items _ form | property _ form | negated _ form => cases form
    | @part _ how _ _ _ form => cases how with | _ => cases form

/-- A body with its media types in ascending order. -/
def orderedBody (schema : Json) : Json :=
  bodyForm schema [("application/a+json", ["to", "at"]), ("application/b+json", ["by"])]

/-- The schema of that body is the one of its first media type. -/
theorem bodySchemaOf?_orderedBody (schema : Json) :
  bodySchemaOf? (Value.ofJson (orderedBody schema)) =
    some (Value.ofJson (objectForm schema ["to", "at"]))
  := by
  have hjson : isJsonType "application/a+json" = true := by decide +kernel
  have hmedia : jsonMedia? (mediaTypesOf (Value.ofJson (orderedBody schema))) =
      some (Value.ofJson (.obj [("schema", objectForm schema ["to", "at"])])) := by
    change ((List.find? _ (("application/a+json", _) :: _)).map _ : Option Value) = _
    rw [List.find?_cons, hjson]
    rfl
  rw [bodySchemaOf?, hmedia]
  rfl

/-- That body has the same arguments by way of a reference to its form, where the choices are left
out. -/
theorem sameArguments_of_orderedBody :
  SameArguments
    (argumentsOfOperation (bodyScope (orderedBody (.obj [("minLength", .int 1)]))) []
      (withBody (.inline (RequestBody.ofValue (Value.ofJson (orderedBody unchosen))))))
    (argumentsOfOperation (bodyScope (orderedBody (.obj [("minLength", .int 1)]))) []
      (withBody (.ref "#/body")))
  := by
  apply argumentsOfOperation_of_reference (bodyScope (orderedBody (.obj [("minLength", .int 1)])))
    [] (withBody (.ref "#/body")) (v := Value.ofJson (orderedBody unchosen))
  · decide +kernel
  · rfl
  · rfl
  · exact ⟨"body".toList, by decide +kernel, rfl⟩
  · decide +kernel
  · intro w hw
    rw [bodySchemaOf?_orderedBody] at hw
    cases hw
    apply lasting_objectForm lasting_unchosen

/-- A body with the same media types in another order. -/
def crossedBody : Json :=
  bodyForm (.obj [("type", .str "string")])
    [("application/b+json", ["by"]), ("application/a+json", ["to", "at"])]

/-- That body has the arguments of its first media type, and by way of a reference those of the
other one. -/
theorem not_sameArguments_of_crossedBody :
  (Shape.refOr .requestBody).conform .strict (Value.ofJson crossedBody) = some crossedBody ∧
    RequestBody.decode? (Value.ofJson crossedBody) =
      some (.inline (RequestBody.ofValue (Value.ofJson crossedBody))) ∧
    (bodyScope crossedBody).Points "#/body" crossedBody.sorted ∧
    ¬ SameArguments
      (argumentsOfOperation (bodyScope crossedBody) []
        (withBody (.inline (RequestBody.ofValue (Value.ofJson crossedBody)))))
      (argumentsOfOperation (bodyScope crossedBody) [] (withBody (.ref "#/body")))
  := by
  use rfl, rfl
  constructor
  · exact ⟨"body".toList, by decide +kernel, rfl⟩
  · intro h
    have hinline : ((argumentsOfOperation (bodyScope crossedBody) []
        (withBody (.inline (RequestBody.ofValue (Value.ofJson crossedBody))))).map namesOf) =
        .ok ["by"] := by
      decide +kernel
    have href : ((argumentsOfOperation (bodyScope crossedBody) []
        (withBody (.ref "#/body"))).map namesOf) = .ok ["at", "to"] := by
      decide +kernel
    generalize argumentsOfOperation _ _ _ = x at h hinline
    generalize argumentsOfOperation _ _ _ = y at h href
    cases h with
    | failed => cases hinline
    | made hp =>
        rw [Except.map, Except.ok.injEq] at hinline href
        have hlength := (hp.map (·.name)).length_eq
        change (namesOf _).length = (namesOf _).length at hlength
        rw [hinline, href] at hlength
        cases hlength

end ApiIntake
