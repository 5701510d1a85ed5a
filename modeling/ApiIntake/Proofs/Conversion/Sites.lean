import ApiIntake.Proofs.Conversion.Reading
import ApiIntake.Proofs.Tool.Following

/-!
# Where references are followed

A conversion follows the references at the sites of a document one site behind another: at the
path items, and at the parameters, the body and the schemas of each operation that is selected
(`sitesOfPaths`).  If it fails for a reference, then at the first site that fails, and for the
first reference there that cannot be followed; if it succeeds, no site fails
(`blames_toolsOfPaths`).  The class of the error tells at an operation whether the reference
points out of the document, and does not at a path item (`class_of_reference_error`).
-/

namespace ApiIntake

open ApiIntake.OpenApi

/-! ### Sites -/

/-- The reference that an error is for. -/
def ConvertError.reference? : ConvertError → Option RefError
  | .pathItem _ e => some e
  | .operation _ (.reference e) => some e
  | _ => none

/-- A site of a document where references are followed. -/
inductive Site where
  /-- The path item of a path. -/
  | pathItem (path : String) (x : RefOr PathItem)
  /-- A parameter of the operation with a label. -/
  | parameter (label : String) (x : RefOr Parameter)
  /-- The body of a request for the operation with a label. -/
  | requestBody (label : String) (x : RefOr RequestBody)
  /-- The schema of a parameter or a body of the operation with a label. -/
  | schema (label : String) (s : Schema)

/-- The first reference at a site that cannot be followed, and why. -/
def Site.Breaks (r : RefScope) : Site → RefError → Prop
  | .pathItem _ x => r.Fails .pathItem PathItem.ofValue x
  | .parameter _ x => r.Fails .parameter Parameter.ofValue x
  | .requestBody _ x => r.Fails .requestBody RequestBody.ofValue x
  | .schema _ s => fun e => ∃ followed, r.Follows [] s.refs followed ∧
      FirstFails (fun target e => r.Fails .schema Schema.ofValue (.ref target) e) followed e

/-- The error for a reference at a site. -/
def Site.error : Site → RefError → ConvertError
  | .pathItem path _ => .pathItem path
  | .parameter label _ | .requestBody label _ | .schema label _ =>
    fun e => .operation label (.reference e)

/-- A site fails with the error for its first reference that cannot be followed. -/
def Site.Fails (r : RefScope) (site : Site) (e : ConvertError) : Prop :=
  ∃ cause, site.Breaks r cause ∧ site.error cause = e

/-- The parameters that are found, of those that may be references. -/
def parametersFound (r : RefScope) (refs : List (RefOr Parameter)) : List Parameter :=
  refs.filterMap fun x => (r.resolve Parameter.decode? x).toOption

/-- The site of the schema of a parameter, if it has one. -/
def sitesOfParameter (label : String) (p : Parameter) : List Site :=
  match p.format with
  | .schema s => [.schema label s]
  | .content => []

/-- The sites of a body and, behind it, its schema. -/
def sitesOfBody (r : RefScope) (label : String) (x : RefOr RequestBody) : List Site :=
  .requestBody label x ::
    match r.resolve RequestBody.decode? x with
    | .ok body => (jsonBodySchema? body).toList.map (.schema label)
    | .error _ => []

/-- The sites of an operation: the parameters, the schemas of those that count, and the body. -/
def sitesOfOperation (r : RefScope) (label : String) (common : List (RefOr Parameter))
    (op : Operation) : List Site :=
  (common ++ op.parameters).map (.parameter label) ++
    (joined (parametersFound r (common ++ op.parameters))).flatMap (sitesOfParameter label) ++
    op.requestBody.toList.flatMap (sitesOfBody r label)

/-- The sites of a path: the path item and, behind it, its operations that are selected. -/
def sitesOfPath (r : RefScope) (selection : Discovery) (p : String × RefOr PathItem) : List Site :=
  .pathItem p.1 p.2 ::
    match r.resolve PathItem.decode? p.2 with
    | .ok item => (selectedOperations selection p.1 item).flatMap fun o =>
        sitesOfOperation r (operationLabel o.1 p.1) item.parameters o.2
    | .error _ => []

/-- The sites of all paths. -/
def sitesOfPaths (r : RefScope) (selection : Discovery) (paths : List (String × RefOr PathItem)) :
    List Site :=
  paths.flatMap (sitesOfPath r selection)

/-! ### Blame -/

/-- What comes of a computation over some sites: if it fails for a reference, the first of the
sites that fails is to blame, and if it succeeds, none of them fails. -/
structure Blames {α ε : Type} (r : RefScope) (whole : ε → ConvertError) (sites : List Site)
    (x : Except ε α) : Prop where
  /-- The error is that of the first site that fails. -/
  error : ∀ e, x = .error e → (whole e).reference? ≠ none →
    FirstFails (Site.Fails r) sites (whole e)
  /-- No site fails. -/
  ok : ∀ a, x = .ok a → ∀ e, ¬ FirstFails (Site.Fails r) sites e

namespace Blames

variable {α β ε ε' : Type} {r : RefScope} {whole : ε → ConvertError} {sites sites' : List Site}
  {site : Site} {x : Except ε α}

/-- Without references nothing is to blame. -/
theorem nil (h : ∀ e, x = .error e → (whole e).reference? = none) :
  Blames r whole [] x
  := by
  constructor
  · intro e hx hne
    cases hne (h e hx)
  · intro a _ e
    rw [FirstFails.nil_iff]
    apply not_false

/-- What fails where a site breaks blames the site. -/
theorem one {x : Except RefError α} (h : ∀ cause, x = .error cause ↔ site.Breaks r cause) :
  Blames r site.error [site] x
  := by
  constructor
  · intro e hx _
    apply FirstFails.here ⟨e, (h e).mp hx, rfl⟩
  · intro a hx e
    rw [FirstFails.cons_iff, FirstFails.nil_iff, and_false, or_false]
    rintro ⟨cause, hbreaks, -⟩
    rw [(h cause).mpr hbreaks] at hx
    cases hx

/-- What goes on behind a computation goes on to the sites behind. -/
theorem bind {f : α → Except ε β} (h : Blames r whole sites x)
    (hf : ∀ a, x = .ok a → Blames r whole sites' (f a)) :
  Blames r whole (sites ++ sites') (x >>= f)
  := by
  constructor
  · intro e he hne
    rw [FirstFails.append_iff]
    obtain hx | ⟨a, hx, hfa⟩ := bind_eq_error_iff.mp he
    · left
      apply h.error e hx hne
    · right
      use h.ok a hx, (hf a hx).error e hfa hne
  · intro b hb e
    obtain ⟨a, hx, hfa⟩ := bind_eq_ok_iff.mp hb
    rw [FirstFails.append_iff]
    rintro (he | ⟨-, he⟩)
    · apply h.ok a hx e he
    · apply (hf a hx).ok b hfa e he

/-- What goes on without references blames the same sites. -/
theorem bind_nil {f : α → Except ε β} (h : Blames r whole sites x)
    (hf : ∀ a, Blames r whole [] (f a)) :
  Blames r whole sites (x >>= f)
  := by
  rw [← List.append_nil sites]
  apply h.bind
  intro a _
  apply hf

/-- Errors that are carried over blame the same sites. -/
theorem mapError {g : ε' → ε} {x : Except ε' α} (h : Blames r (fun e => whole (g e)) sites x) :
  Blames r whole sites (x.mapError g)
  := by
  cases x with
  | ok a =>
      constructor
      · rintro e ⟨⟩
      · intro a' _
        apply h.ok a rfl
  | error e =>
      constructor
      · rintro _ ⟨⟩ hne
        apply h.error e rfl hne
      · rintro a ⟨⟩

end Blames

section

variable {r : RefScope} {label : String} {common : List (RefOr Parameter)} {op : Operation}

/-- Where something is resolved, the references of its chain are followed. -/
theorem blames_resolve {α : Type} {kind : Kind} {read : Yaml.Value → α} {x : RefOr α} {site : Site}
    (h : site.Breaks r = r.Fails kind read x) :
  Blames r site.error [site] (r.resolve (decodeRef? kind read) x)
  := by
  apply Blames.one
  intro cause
  rw [h, RefScope.resolve_eq_error_iff_fails]

/-- Where parameters are joined, the references to them are followed. -/
theorem blames_foldlM_resolve (refs : List (RefOr Parameter)) (all : List Parameter) :
  Blames r (fun e => .operation label (.reference e)) (refs.map (.parameter label))
    (refs.foldlM
      (fun merged p => do
        let p ← r.resolve Parameter.decode? p
        .ok (overrideParameter p merged))
      all)
  := by
  induction refs generalizing all with
  | nil =>
      apply Blames.nil
      rintro e ⟨⟩
  | cons x refs ih =>
      rw [List.foldlM_cons]
      have hx : Blames r (Site.parameter label x).error [.parameter label x]
          (r.resolve Parameter.decode? x) := blames_resolve rfl
      have hover (p : Parameter) : Blames r (Site.parameter label x).error []
          (.ok (overrideParameter p all)) := by
        apply Blames.nil
        rintro e ⟨⟩
      apply (hx.bind_nil hover).bind
      intro merged _
      apply ih

/-- Where all parameters are looked up, none is missing of those that are found. -/
theorem parametersFound_eq {refs : List (RefOr Parameter)} {found : List Parameter}
    (h : List.Forall₂ (fun x p => r.resolve Parameter.decode? x = .ok p) refs found) :
  parametersFound r refs = found
  := by
  induction h with
  | nil => rfl
  | @cons x p refs found hx _ ih =>
      rw [parametersFound, List.filterMap_cons, hx]
      exact congrArg (p :: ·) ih

/-- Parameters are joined as they are found. -/
theorem eq_of_foldlM_resolve {refs : List (RefOr Parameter)} {all merged : List Parameter}
    (h : refs.foldlM
      (fun merged p => do
        let p ← r.resolve Parameter.decode? p
        .ok (overrideParameter p merged))
      all = .ok merged) :
  merged = (parametersFound r refs).foldl (fun merged p => overrideParameter p merged) all
  := by
  rw [foldlM_resolve] at h
  obtain ⟨found, hfound, rfl⟩ := map_eq_ok_iff.mp h
  rw [parametersFound_eq (mapM_eq_ok_iff.mp hfound)]

/-- Adding arguments follows no references. -/
theorem blames_addArguments {clash : String → ArgumentError} {args more : List Argument}
    (h : ∀ name, (ConvertError.operation label (clash name)).reference? = none) :
  Blames r (ConvertError.operation label) [] (addArguments clash args more)
  := by
  apply Blames.nil
  intro e he
  induction more generalizing args with
  | nil => cases he
  | cons a more ih =>
      rw [addArguments] at he
      split_ifs at he
      · cases he
        apply h
      · apply ih he

/-- A schema breaks where it cannot be inlined. -/
theorem breaks_schema_iff {s : Schema} {cause : RefError} :
  (Site.schema label s).Breaks r cause ↔ (r.inline s).startingAt [] = .error cause
  := by
  have hfails : ∀ target cause, r.schemaAt target = .error cause ↔
      r.Fails .schema Schema.ofValue (.ref target) cause := by
    intro target cause
    apply RefScope.resolve_eq_error_iff_fails
  constructor
  · rintro ⟨followed, hf, first⟩
    apply (RefScope.inline_eq_error_iff hf).mpr ((FirstFails.congr hfails).mpr first)
  · intro h
    obtain ⟨followed, hf⟩ := r.exists_follows [] s
    use followed, hf
    apply (FirstFails.congr hfails).mp ((RefScope.inline_eq_error_iff hf).mp h)

/-- Where a schema is inlined, its references are followed. -/
theorem blames_inline (s : Schema) :
  Blames r (Site.schema label s).error [.schema label s] ((r.inline s).startingAt [])
  := by
  apply Blames.one
  intro cause
  apply breaks_schema_iff.symm

/-- Where the argument for a parameter is made, the references in its schema are followed. -/
theorem blames_argumentOfParameter (p : Parameter) :
  Blames r (.operation label) (sitesOfParameter label p) (argumentOfParameter r p)
  := by
  have hposition : Blames r (.operation label) [] (parameterPosition p) := by
    apply Blames.nil
    intro e he
    rw [parameterPosition] at he
    cases hplace : p.place with
    | path | query | header =>
        rw [hplace] at he
        cases he
    | cookie =>
        rw [hplace] at he
        cases he
        rfl
  rw [argumentOfParameter, ← List.nil_append (sitesOfParameter label p)]
  apply hposition.bind
  intro position _
  rw [sitesOfParameter]
  cases hformat : p.format with
  | schema s =>
      apply Blames.bind_nil
      · apply Blames.mapError
        apply blames_inline
      · intro schema
        apply Blames.nil
        rintro e ⟨⟩
  | content =>
      apply Blames.nil
      rintro e ⟨⟩

/-- Where arguments for parameters are made, the references in their schemas are followed. -/
theorem blames_foldlM_argument (parameters : List Parameter) (args : List Argument) :
  Blames r (.operation label) (parameters.flatMap (sitesOfParameter label))
    (parameters.foldlM
      (fun args p => do
        let a ← argumentOfParameter r p
        addArguments .repeated args [a])
      args)
  := by
  induction parameters generalizing args with
  | nil =>
      apply Blames.nil
      rintro e ⟨⟩
  | cons p parameters ih =>
      rw [List.foldlM_cons, List.flatMap_cons]
      apply Blames.bind
      · apply (blames_argumentOfParameter p).bind_nil
        intro a
        apply blames_addArguments
        intro name
        rfl
      · intro args _
        apply ih

/-- The arguments for properties are made unless a reference in their schemas fails to be
replaced. -/
theorem argumentsOfProperties_eq_error_iff {bodyRequired : Bool} {required chain : List String}
    (properties : List (String × Schema)) (e : RefError) :
  (argumentsOfProperties r bodyRequired required properties).startingAt chain = .error e ↔
    FirstFails (fun target e => r.replaced chain target = .error e)
      (Schema.refsTable properties) e
  := by
  induction properties generalizing e with
  | nil =>
      rw [Schema.refsTable, FirstFails.nil_iff, iff_false]
      rintro ⟨⟩
  | cons property properties ih =>
      obtain ⟨name, s⟩ := property
      rw [argumentsOfProperties, (r.gives_inline s chain).startingAt_bind]
      simp only [RefScope.Walk.startingAt_map]
      apply FirstFails.bind_append_iff
      · intro e
        apply RefScope.inline_eq_error_iff_refs
      · apply ih

/-- The arguments for a body are made unless its schema cannot be inlined. -/
theorem argumentsOfBody_eq_error_iff {body : RequestBody} {s : Schema} {e : RefError}
    (h : jsonBodySchema? body = some s) :
  argumentsOfBody r body = .error e ↔ (r.inline s).startingAt [] = .error e
  := by
  -- where the schema is a reference, it is replaced before anything else
  have hs : (r.inline s).startingAt [] = r.resolve Schema.decode? (RefOr.ofSchema s) >>=
      fun resolved => (r.inline resolved).startingAt (opened s) := by
    cases s with
    | ref target => apply RefScope.startingAt_inline
    | string | primitive | array | object | combined | negated | any => rfl
  rw [argumentsOfBody, h, hs, bind_eq_error_iff, bind_eq_error_iff]
  apply or_congr_right
  apply exists_congr
  intro resolved
  apply and_congr_right
  intro _
  cases resolved with
  | object notes properties required =>
      rw [RefScope.inline_eq_error_iff_refs]
      change (argumentsOfProperties r body.required required properties).startingAt (opened s) =
        _ ↔ _
      apply argumentsOfProperties_eq_error_iff
  | ref | string | primitive | array | combined | negated | any =>
      apply bind_pure_eq_error_iff

/-- Where the arguments for a body are made, the references in its schema are followed. -/
theorem blames_argumentsOfBody (body : RequestBody) :
  Blames r (fun e => .operation label (.reference e))
    ((jsonBodySchema? body).toList.map (.schema label)) (argumentsOfBody r body)
  := by
  cases hschema : jsonBodySchema? body with
  | none =>
      apply Blames.nil
      intro e he
      rw [argumentsOfBody, hschema] at he
      cases he
  | some s =>
      change Blames r (Site.schema label s).error [.schema label s] (argumentsOfBody r body)
      apply Blames.one
      intro cause
      rw [breaks_schema_iff, argumentsOfBody_eq_error_iff hschema]

/-- Where the arguments of an operation are made, the references at its sites are followed. -/
theorem blames_argumentsOfOperation (label : String) (common : List (RefOr Parameter))
    (op : Operation) :
  Blames r (.operation label) (sitesOfOperation r label common op)
    (argumentsOfOperation r common op)
  := by
  rw [sitesOfOperation, List.append_assoc, argumentsOfOperation]
  apply Blames.bind
  · apply Blames.mapError
    apply blames_foldlM_resolve
  intro merged hmerged
  rw [eq_of_foldlM_resolve (mapError_eq_ok_iff.mp hmerged)]
  apply Blames.bind (blames_foldlM_argument _ _)
  intro args _
  cases op.requestBody with
  | none =>
      apply Blames.nil
      rintro e ⟨⟩
  | some x =>
      rw [Option.toList_some, List.flatMap_singleton]
      have hx : Blames r (.operation label) [.requestBody label x]
          (ArgumentError.ofRef (r.resolve RequestBody.decode? x)) := by
        have hone : Blames r (Site.requestBody label x).error [.requestBody label x]
            (r.resolve RequestBody.decode? x) := blames_resolve rfl
        apply Blames.mapError
        apply hone
      apply hx.bind
      intro body hbody
      rw [mapError_eq_ok_iff.mp hbody]
      apply (blames_argumentsOfBody body).mapError.bind_nil
      intro fromBody
      apply blames_addArguments
      intro name
      rfl

/-- Where tools are made, the references at the sites of their operations are followed. -/
theorem blames_addTools {path : String} (tools : List Tool) (ops : List (Method × Operation)) :
  Blames r id
    (ops.flatMap fun o => sitesOfOperation r (operationLabel o.1 path) common o.2)
    (addTools r path common tools ops)
  := by
  induction ops generalizing tools with
  | nil =>
      apply Blames.nil
      rintro e ⟨⟩
  | cons o rest ih =>
      rw [addTools, List.flatMap_cons]
      apply Blames.bind
      · apply Blames.bind_nil
        · apply Blames.mapError
          apply blames_argumentsOfOperation
        · intro args
          apply Blames.nil
          rintro e ⟨⟩
      · intro tool _
        apply ih

/-- Where the tools for a path are made, the references at the sites of the path are followed. -/
theorem blames_toolsOfPath (selection : Discovery) (tools : List Tool)
    (p : String × RefOr PathItem) :
  Blames r id (sitesOfPath r selection p) (toolsOfPath r selection tools p)
  := by
  have hx : Blames r (Site.pathItem p.1 p.2).error [.pathItem p.1 p.2]
      (r.resolve PathItem.decode? p.2) := blames_resolve rfl
  have hitem : Blames r id [.pathItem p.1 p.2]
      ((r.resolve PathItem.decode? p.2).mapError (.pathItem p.1)) := by
    apply Blames.mapError
    apply hx
  rw [toolsOfPath, sitesOfPath]
  apply hitem.bind
  intro item hfound
  rw [mapError_eq_ok_iff.mp hfound]
  apply blames_addTools

/-- Where the tools for paths are made, the references at the sites of the paths are followed. -/
theorem blames_toolsOfPaths (selection : Discovery) (tools : List Tool)
    (paths : List (String × RefOr PathItem)) :
  Blames r id (sitesOfPaths r selection paths) (toolsOfPaths r selection tools paths)
  := by
  induction paths generalizing tools with
  | nil =>
      apply Blames.nil
      rintro e ⟨⟩
  | cons p rest ih =>
      rw [toolsOfPaths_cons, sitesOfPaths, List.flatMap_cons]
      apply (blames_toolsOfPath selection tools p).bind
      intro tools _
      apply ih

end

/-! ### The class of an error -/

/-- The first reference at a site that cannot be followed points out of the document if it does not
begin with a number sign, and only then. -/
theorem Site.Breaks.external_iff {r : RefScope} {site : Site} {cause : RefError}
    (h : site.Breaks r cause) :
  cause.fault = .external ↔ ∀ rest, cause.target.toList ≠ '#' :: rest
  := by
  cases site with
  | pathItem path x | parameter label x | requestBody label x =>
      apply RefScope.Fails.external_iff h
  | schema label s =>
      obtain ⟨followed, -, first⟩ := h
      obtain ⟨target, -, hfails⟩ := first.exists_mem
      apply hfails.external_iff

/-- For a reference at an operation the class of the error tells whether it points out of the
document. -/
theorem errorClass_reference (label : String) (cause : RefError) :
  (ConvertError.operation label (.reference cause)).errorClass =
    if cause.fault = .external then .unsupported else .reference
  := by
  obtain ⟨fault, target⟩ := cause
  cases fault with
  | external | notPointer | dangling | wrongKind | cyclic => rfl

/-- What keeps bytes from being a document is no reference. -/
theorem reference?_of_readDocument {bytes : List UInt8} {e : ConvertError}
    (h : readDocument bytes = .error e) :
  e.reference? = none
  := by
  have hpath := ofPath_of_readDocument h
  cases e with
  | operation | pathItem => cases hpath
  | emptyDocument | unreadable | unsupportedVersion | invalid => rfl

/-- A document that is refused for a reference is refused for the first site that fails. -/
theorem Rejection.firstFails {s : Settings} {d : Document} {e : ConvertError}
    (h : Rejection s d e) (hcause : e.reference? ≠ none) :
  FirstFails (Site.Fails ⟨d.root⟩) (sitesOfPaths ⟨d.root⟩ s.discovery d.paths) e
  := by
  cases h with
  | blankTitle _ => cases hcause rfl
  | noPaths _ _ => cases hcause rfl
  | path _ first =>
      apply (blames_toolsOfPaths s.discovery [] d.paths).error e _ hcause
      apply toolsOfPaths_eq_error_iff.mpr first
  | nothingSelected _ _ _ _ => cases hcause rfl

/-- If a conversion fails for a reference, the error is that of the first site that fails, for the
first reference there that cannot be followed.  It is one of what is not supported if this is at
an operation and does not begin with a number sign, and else one of a reference. -/
theorem class_of_reference_error {s : Settings} {destination : Destination} {bytes : List UInt8}
    {e : ConvertError} {cause : RefError} (h : convert s destination bytes = .error e)
    (hcause : e.reference? = some cause) :
  ∃ d, readDocument bytes = .ok d ∧
    FirstFails (Site.Fails ⟨d.root⟩) (sitesOfPaths ⟨d.root⟩ s.discovery d.paths) e ∧
    (cause.fault = .external ↔ ∀ rest, cause.target.toList ≠ '#' :: rest) ∧
    (e.errorClass = .unsupported ↔
      (∃ label, e = .operation label (.reference cause)) ∧
        ∀ rest, cause.target.toList ≠ '#' :: rest) ∧
    (e.errorClass = .reference ↔
      (∃ path, e = .pathItem path cause) ∨ ∃ rest, cause.target.toList = '#' :: rest)
  := by
  have hne : e.reference? ≠ none := by simp [hcause]
  obtain hd | ⟨d, hd, hr⟩ := convert_eq_error_iff.mp h
  · cases hne (reference?_of_readDocument hd)
  have first := hr.firstFails hne
  obtain ⟨site, -, cause', hbreaks, rfl⟩ := first.exists_mem
  have heq : cause' = cause := by
    cases site with
    | pathItem | parameter | requestBody | schema => apply Option.some.inj hcause
  subst heq
  have hexternal := hbreaks.external_iff
  use d, hd, first, hexternal
  have hsign : (∃ rest, cause'.target.toList = '#' :: rest) ↔ ¬ cause'.fault = .external := by
    rw [hexternal, not_forall_not]
  rw [← hexternal, hsign]
  cases site with
  | pathItem path x => simp [Site.error, ConvertError.errorClass]
  | parameter label x | requestBody label x | schema label s =>
      by_cases hfault : cause'.fault = .external
      · simp [Site.error, errorClass_reference, hfault]
      · simp [Site.error, errorClass_reference, hfault]

/-- The text of a document with a parameter whose schema points out of it. -/
def farItemsText : List Char :=
  ["\x7bopenapi: '3.', info: \x7btitle: T, version: v\x7d, ",
   "paths: \x7b/a: \x7bget: \x7bresponses: \x7b\x7d, ",
   "parameters: [\x7bname: q, in: query, ",
   "schema: \x7btype: array, items: \x7b$ref: b.yaml\x7d\x7d\x7d]\x7d\x7d\x7d\x7d"].flatMap
    String.toList

set_option maxRecDepth 10000 in
/-- A document with such a parameter is refused for what is not supported. -/
theorem class_of_farItems :
  ∃ e, convert .standard .byConvention (Text.utf8 (String.ofList farItemsText)) = .error e ∧
    e.reference? = some ⟨.external, "b.yaml"⟩ ∧ e.errorClass = .unsupported
  := by
  have hfirst : farItemsText.head? = some '\x7b' := by decide +kernel
  have htext : (readText farItemsText >>= fun d =>
      (convertDocument .standard .byConvention d "").map fun c => c.tools.length) =
        .error (.operation "GET /a" (.reference ⟨.external, "b.yaml"⟩)) := by decide +kernel
  have hconvert := convert_eq_error_of_readText hfirst (by decide) htext
  obtain ⟨_, _, _, hexternal, hunsupported, _⟩ := class_of_reference_error hconvert rfl
  refine ⟨_, hconvert, rfl, ?_⟩
  apply hunsupported.mpr
  use ⟨_, rfl⟩
  apply hexternal.mp rfl

/-- The text of a document with a path item that points out of it. -/
def farPathText : List Char :=
  ["\x7bopenapi: '3.', info: \x7btitle: T, version: v\x7d, ",
   "paths: \x7b/a: \x7b$ref: b.yaml\x7d\x7d\x7d"].flatMap
    String.toList

set_option maxRecDepth 10000 in
/-- A document with such a path item is refused for a reference, although what points out of the
document is not supported. -/
theorem class_of_farPath :
  ∃ e cause, convert .standard .byConvention (Text.utf8 (String.ofList farPathText)) = .error e ∧
    e.reference? = some cause ∧ (∀ rest, cause.target.toList ≠ '#' :: rest) ∧
    RefError.errorClass cause = .unsupported ∧ e.errorClass = .reference
  := by
  have hfirst : farPathText.head? = some '\x7b' := by decide +kernel
  have htext : (readText farPathText >>= fun d =>
      (convertDocument .standard .byConvention d "").map fun c => c.tools.length) =
        .error (.pathItem "/a" ⟨.external, "b.yaml"⟩) := by decide +kernel
  have hconvert := convert_eq_error_of_readText hfirst (by decide) htext
  refine ⟨_, _, hconvert, rfl, ?_, rfl, rfl⟩
  intro rest h
  have hhead : "b.yaml".toList.head? = some '#' := by
    rw [h]
    rfl
  cases hhead

end ApiIntake
