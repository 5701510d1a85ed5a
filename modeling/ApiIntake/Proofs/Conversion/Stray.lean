import ApiIntake.Proofs.Conversion.Sites
import ApiIntake.Proofs.OpenApi.Written

/-!
# References that lead nowhere

A document is refused if a schema of one of its selected operations meets a reference that points
to nothing (`rejects_stray`).  What a schema meets is written under the keywords of the forms of
schemas; under any other keyword a reference may lead nowhere (`converts_strayText`).
-/

namespace ApiIntake

open ApiIntake.OpenApi
open ApiIntake.Yaml (Value)

section

variable {s : Settings} {d : Document} {path : String} {item : PathItem} {method : Method}
  {op : Operation} {e : ConvertError}

/-- A schema breaks if it reaches a reference that stands for no schema. -/
theorem exists_breaks_schema {r : RefScope} {label t : String} {schema : Schema} {cause : RefError}
    (h : r.Reaches schema t) (ht : r.schemaAt t = .error cause) :
  ∃ cause, (Site.schema label schema).Breaks r cause
  := by
  obtain ⟨followed, hf⟩ := r.exists_follows [] schema
  have hbroken : ∃ first, r.Broken followed first :=
    FirstFails.exists_iff.mpr ⟨t, hf.mem_of_reaches h, cause, ht⟩
  obtain ⟨first, hfirst⟩ := hbroken
  use first
  apply breaks_schema_iff.mpr ((RefScope.inline_eq_error_iff hf).mpr hfirst)

/-- A document is refused if a site of a selected operation breaks. -/
theorem Selected.exists_rejection {label : String} {site : Site} {cause : RefError}
    (selected : Selected s d path item method op)
    (hsite : site ∈ sitesOfOperation ⟨d.root⟩ label item.parameters op)
    (h : site.Breaks ⟨d.root⟩ cause) :
  ∃ e, Rejection s d e
  := by
  have hblames := blames_argumentsOfOperation (r := ⟨d.root⟩) label item.parameters op
  by_contra hnone
  obtain ⟨args, hargs⟩ := (acceptable_iff.mpr (not_exists.mp hnone)).arguments selected
  have hfails : ∃ e, (site.Fails ⟨d.root⟩ e) := ⟨_, cause, h, rfl⟩
  obtain ⟨first, hfirst⟩ := FirstFails.exists_iff.mpr ⟨site, hsite, hfails⟩
  apply hblames.ok args hargs first hfirst

/-- A document with a selected operation is refused for its title, or for a path item or an
operation. -/
theorem Selected.of_rejection (selected : Selected s d path item method op) (h : Rejection s d e) :
  if Text.trim d.title = "" then e = .invalid .blankTitle
  else e.errorClass ∈ [ErrorClass.reference, .unsupported, .parameterCollision]
  := by
  obtain ⟨ref, hmem, -⟩ := selected.found
  cases h with
  | blankTitle title => rw [if_pos title]
  | noPaths _ paths =>
      rw [paths] at hmem
      cases hmem
  | path title first =>
      rw [if_neg title]
      obtain ⟨p, -, hp⟩ := first.exists_mem
      cases hp with
      | pathItem _ => apply List.mem_cons_self
      | method _ first =>
          obtain ⟨_, -, hm⟩ := first.exists_mem
          cases hm with
          | operation _ _ hf =>
              cases hf with
              | arguments _ => apply ConvertError.errorClass_operation
  | nothingSelected _ _ _ none => cases none ⟨path, item, method, op, selected⟩

/-- A document is refused if a reference is met that points out of it or to nothing in it, from a
schema that a selected operation inlines.  The error is that of a blank title, or else one of a
reference, of what is not supported or of parameters with one name. -/
theorem rejects_stray {label target : String} {v : Value}
    (selected : Selected s d path item method op)
    (inlined :
      .schema label (Schema.ofValue v) ∈ sitesOfOperation ⟨d.root⟩ label item.parameters op)
    (meets : RefScope.Meets ⟨d.root⟩ v target) (stray : ∀ w, ¬ RefScope.Points ⟨d.root⟩ target w) :
  ∃ e, Rejection s d e ∧
    (∀ destination bytes, readDocument bytes = .ok d →
      convert s destination bytes = .error e) ∧
    if Text.trim d.title = "" then e = .invalid .blankTitle
    else e.errorClass ∈ [ErrorClass.reference, .unsupported, .parameterCollision]
  := by
  obtain ⟨t, cause, hreach, ht⟩ := meets.exists_reaches stray
  obtain ⟨cause, hbreaks⟩ := exists_breaks_schema hreach ht
  obtain ⟨e, he⟩ := selected.exists_rejection inlined hbreaks
  use e, he
  constructor
  · intro destination bytes hd
    apply convert_eq_error_iff.mpr (.inr ⟨d, hd, he⟩)
  · apply selected.of_rejection he

end

/-- The text of a document with a parameter whose schema is a reference.  It points to a schema of
arrays, and that of their items points out of the document. -/
def farIdsText : List Char :=
  ["\x7bopenapi: '3.', info: \x7btitle: T, version: v\x7d, ",
   "paths: \x7b/a: \x7bget: \x7bresponses: \x7b\x7d, parameters: [",
   "\x7bname: p, in: query, schema: \x7b$ref: '#/components/schemas/ids'\x7d\x7d]\x7d\x7d\x7d, ",
   "components: \x7bschemas: \x7bids: \x7btype: array, items: \x7b$ref: id.yaml\x7d\x7d\x7d\x7d\x7d"].flatMap
    String.toList

/-- The reference that is the schema of a parameter. -/
def schemaRef? : RefOr Parameter → Option String
  | .inline ⟨_, _, _, _, .schema (.ref target)⟩ => some target
  | _ => none

/-- A parameter that is there itself has the reference as its schema. -/
theorem exists_of_schemaRef? {x : RefOr Parameter} {target : String}
    (h : schemaRef? x = some target) :
  ∃ p, x = .inline p ∧ p.format = .schema (.ref target)
  := by
  rw [schemaRef?.eq_def] at h
  split at h
  case h_1 =>
    cases h
    exact ⟨_, rfl, rfl⟩
  case h_2 => cases h

/-- The reference that is the schema of the items of arrays. -/
def itemsRef? : Json → Option String
  | .obj [("items", .obj [("$ref", .str target)]), ("type", .str "array")] => some target
  | _ => none

/-- A schema of arrays has the reference as that of their items. -/
theorem of_itemsRef? {v : Json} {target : String} (h : itemsRef? v = some target) :
  v = .obj [("items", .obj [("$ref", .str target)]), ("type", .str "array")]
  := by
  rw [itemsRef?.eq_def] at h
  split at h
  case h_1 =>
    cases h
    rfl
  case h_2 => cases h

/-- The title, the parameters of the path item and of the operation, and the reference in the schema
that these refer to. -/
def farIdsFacts (d : Document) : String × Option (Nat × List (Option String)) × Option String :=
  (d.title, (getOn? d "/a").map fun o => (o.1.parameters.length, o.2.parameters.map schemaRef?),
    (d.root.pointer? "/components/schemas/ids".toList).bind itemsRef?)

set_option maxRecDepth 10000 in
/-- There is one parameter, and the reference points out of the document. -/
theorem facts_of_farIdsText :
  (readText farIdsText).map farIdsFacts =
    .ok ("T", some (0, [some "#/components/schemas/ids"]), some "id.yaml")
  := by
  decide +kernel

/-- The schema of a single parameter is one that the operation inlines. -/
theorem schema_mem_sites {r : RefScope} {op : Operation} {p : Parameter} {schema : Schema}
    (label : String) (hop : op.parameters = [.inline p]) (hformat : p.format = .schema schema) :
  .schema label schema ∈ sitesOfOperation r label [] op
  := by
  rw [sitesOfOperation, hop]
  apply List.mem_append_left
  apply List.mem_append_right
  apply List.mem_flatMap.mpr
  use p, List.mem_singleton_self p
  rw [sitesOfParameter, hformat]
  apply List.mem_singleton_self

/-- By way of a reference to a schema of arrays, the reference of their items is met. -/
theorem meets_items {r : RefScope} {target next : String}
    (h : r.Points next (.obj [("items", .obj [("$ref", .str target)]), ("type", .str "array")])) :
  r.Meets (Value.ofJson (.obj [("$ref", .str next)])) target
  := by
  apply RefScope.Meets.through (.here rfl) h
  apply RefScope.Meets.here
  apply Value.Mentions.inside
  · apply Value.Holds.items rfl
    · rfl
    · rfl
  · apply Value.Mentions.here rfl

/-- The document is refused for the reference out of it, or for parameters of one name. -/
theorem rejects_farIdsText :
  ∃ e, convert .standard .byConvention (Text.utf8 (String.ofList farIdsText)) = .error e ∧
    e.errorClass ∈ [ErrorClass.reference, .unsupported, .parameterCollision]
  := by
  have hfirst : farIdsText.head? = some '\x7b' := by decide +kernel
  obtain ⟨d, hread, hfacts⟩ := map_eq_ok_iff.mp facts_of_farIdsText
  rw [← readDocument_utf8 hfirst (by decide)] at hread
  obtain ⟨htitle, hrest⟩ := Prod.mk.inj hfacts
  obtain ⟨hget, hids⟩ := Prod.mk.inj hrest
  obtain ⟨⟨item, op⟩, hop, hparameters⟩ := Option.map_eq_some_iff.mp hget
  obtain ⟨hcommon, hown⟩ := Prod.mk.inj hparameters
  obtain ⟨hpath, hoperation⟩ := of_getOn? hop
  obtain ⟨x, xs, hop, hx, hxs⟩ := List.map_eq_cons_iff.mp hown
  obtain ⟨p, rfl, hformat⟩ := exists_of_schemaRef? hx
  obtain rfl := List.map_eq_nil_iff.mp hxs
  obtain ⟨ids, hpointer, hitems⟩ := Option.bind_eq_some_iff.mp hids
  obtain rfl := of_itemsRef? hitems
  have selected : Selected .standard d "/a" item .get op :=
    ⟨⟨.inline item, hpath, rfl⟩, hoperation, rfl⟩
  have inlined := schema_mem_sites (r := ⟨d.root⟩) "GET /a" hop hformat
  rw [← List.eq_nil_of_length_eq_zero hcommon] at inlined
  have hpoints : RefScope.Points ⟨d.root⟩ "#/components/schemas/ids"
      (.obj [("items", .obj [("$ref", .str "id.yaml")]), ("type", .str "array")]) :=
    ⟨"components/schemas/ids".toList, by decide, hpointer⟩
  have stray : ∀ w, ¬ RefScope.Points ⟨d.root⟩ "id.yaml" w := by
    rintro w ⟨pointer, h, -⟩
    cases h
  obtain ⟨e, -, hconvert, hclass⟩ := rejects_stray selected inlined (meets_items hpoints) stray
  have title : Text.trim d.title ≠ "" := by
    rw [htitle]
    decide +kernel
  rw [if_neg title] at hclass
  exact ⟨e, hconvert .byConvention _ hread, hclass⟩

/-- The text of a document with two parameters, whose schemas have references that point to nothing:
one for all properties of an object, and one for an object that is one of some combined. -/
def strayText : List Char :=
  ["\x7bopenapi: '3.', info: \x7btitle: T, version: v\x7d, ",
   "paths: \x7b/a: \x7bget: \x7bresponses: \x7b\x7d, parameters: [",
   "\x7bname: p, in: query, schema: \x7btype: object, ",
   "additionalProperties: \x7b$ref: '#/x'\x7d\x7d\x7d, ",
   "\x7bname: q, in: query, schema: \x7btype: object, ",
   "oneOf: [\x7b$ref: '#/x'\x7d]\x7d\x7d]\x7d\x7d\x7d\x7d"].flatMap
    String.toList

/-- The references in the schemas of the two parameters. -/
def strayRefs (d : Document) : List (Option String) :=
  ["/paths/~1a/get/parameters/0/schema/additionalProperties/$ref",
   "/paths/~1a/get/parameters/1/schema/oneOf/0/$ref"].map fun pointer =>
    (d.root.pointer? pointer.toList).bind Json.text?

/-- The references, whether there is nothing where they point, and the schemas of arguments. -/
def strayFacts (d : Document) (tools : List Tool) :
    List (Option String) × Bool × List (List String) :=
  (strayRefs d, (d.root.pointer? ['/', 'x']).isNone,
    tools.map fun t => t.args.map fun a => a.schema.compact)

set_option maxRecDepth 10000 in
/-- The references point to nothing, and a tool is made that has arguments of any objects. -/
theorem facts_of_strayText :
  (readText strayText >>= fun d =>
    (convertDocument .standard .byConvention d "").map fun c => strayFacts d c.tools) =
    .ok ([some "#/x", some "#/x"], true,
      [["\x7b\"type\":\"object\"\x7d", "\x7b\"type\":\"object\"\x7d"]])
  := by
  decide +kernel

/-- A document is converted although the schemas of its parameters have references that point to
nothing, under keywords that hold schemas. -/
theorem converts_strayText :
  ∃ d c, readDocument (Text.utf8 (String.ofList strayText)) = .ok d ∧
    convert .standard .byConvention (Text.utf8 (String.ofList strayText)) = .ok c ∧
    strayRefs d = [some "#/x", some "#/x"] ∧ (∀ w, ¬ RefScope.Points ⟨d.root⟩ "#/x" w) ∧
    (c.tools.map fun t => t.args.map fun a => a.schema.compact) =
      [["\x7b\"type\":\"object\"\x7d", "\x7b\"type\":\"object\"\x7d"]]
  := by
  have hfirst : strayText.head? = some '\x7b' := by decide +kernel
  obtain ⟨d, c, hd, hc, heq⟩ := exists_of_readText hfirst (by decide) facts_of_strayText
  obtain ⟨hrefs, hrest⟩ := Prod.mk.inj heq
  obtain ⟨hnone, htools⟩ := Prod.mk.inj hrest
  refine ⟨d, c, hd, hc, hrefs, ?_, htools⟩
  rintro w ⟨pointer, h, hw⟩
  have hpointer : ['/', 'x'] = '/' :: pointer := (List.cons.inj h).2
  rw [hpointer, hw] at hnone
  cases hnone

end ApiIntake
