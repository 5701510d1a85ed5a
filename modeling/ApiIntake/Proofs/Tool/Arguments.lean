import ApiIntake.Conversion
import ApiIntake.Proofs.Json.Members
import ApiIntake.Proofs.OpenApi.Reference
import ApiIntake.Proofs.Tool.Inlining
import Mathlib.Data.List.Forall2
import Mathlib.Data.List.Induction
import Mathlib.Data.List.Nodup

/-!
# The arguments of a tool

The parameters of an operation are those of its path item and its own, one for each place and
name, of which the last one counts (`Prevails`).  A tool has one argument for each of them and
behind these the ones for the body of the request (`OfBody`), all of different names, and its
input schema lists them (`Describes`).
-/

namespace ApiIntake

open ApiIntake.OpenApi

/-! ### Parameters in the place of others -/

/-- What tells parameters apart. -/
def OpenApi.Parameter.key (p : Parameter) : ParameterPlace × String := (p.place, p.name)

/-- A parameter is the last of those with its key. -/
def Prevails (all : List Parameter) (p : Parameter) : Prop :=
  (all.reverse.find? fun q => q.key = p.key) = some p

/-- Parameters put one by one in the place of those with their keys. -/
def joined (all : List Parameter) : List Parameter :=
  all.foldl (fun merged p => overrideParameter p merged) []

section

variable {r : RefScope} {p q : Parameter} {all merged commons owns : List Parameter}

/-- The keys of parameters are the same if they agree in place and name. -/
theorem key_eq_iff :
  q.key = p.key ↔ q.place = p.place ∧ q.name = p.name
  := by
  rw [Parameter.key, Parameter.key, Prod.mk.injEq]

/-- A parameter takes the place of the first of others if that one has its key. -/
theorem overrideParameter_cons (p q : Parameter) (merged : List Parameter) :
  overrideParameter p (q :: merged) =
    if q.key = p.key then p :: merged else q :: overrideParameter p merged
  := by
  simp only [overrideParameter, key_eq_iff]

/-- A parameter in the place of another has its key, else one more key stands behind the
others. -/
theorem map_key_overrideParameter (p : Parameter) (merged : List Parameter) :
  (overrideParameter p merged).map Parameter.key =
    if p.key ∈ merged.map Parameter.key then merged.map Parameter.key
    else merged.map Parameter.key ++ [p.key]
  := by
  induction merged with
  | nil => rfl
  | cons q merged ih =>
      rw [overrideParameter_cons]
      split_ifs with hq hmem hmem
      · rw [List.map_cons, List.map_cons, hq]
      · apply absurd _ hmem
        rw [List.map_cons, hq]
        apply List.mem_cons_self
      · rw [List.map_cons, ih, if_pos (List.mem_of_ne_of_mem (Ne.symm hq) hmem), List.map_cons]
      · rw [List.map_cons, ih, if_neg (mt (List.mem_cons_of_mem _) hmem), List.map_cons,
          List.cons_append]

/-- A parameter replaces the one with its key among others of different keys. -/
theorem mem_overrideParameter_iff (h : (merged.map Parameter.key).Nodup) :
  q ∈ overrideParameter p merged ↔ q = p ∨ q ∈ merged ∧ q.key ≠ p.key
  := by
  induction merged with
  | nil => simp [overrideParameter]
  | cons m merged ih =>
      obtain ⟨hm, hmerged⟩ := List.nodup_cons.mp h
      rw [overrideParameter_cons]
      split_ifs with hkey
      · have hne : ∀ n ∈ merged, n.key ≠ p.key := by
          rintro n hn hnp
          apply hm
          rw [hkey, ← hnp]
          apply List.mem_map_of_mem hn
        rw [List.mem_cons, List.mem_cons]
        apply or_congr_right
        constructor
        · intro hq
          exact ⟨.inr hq, hne q hq⟩
        · rintro ⟨rfl | hq, hqp⟩
          · apply absurd hkey hqp
          · apply hq
      · rw [List.mem_cons, List.mem_cons, ih hmerged]
        constructor
        · rintro (rfl | rfl | ⟨hq, hqp⟩)
          · exact .inr ⟨.inl rfl, hkey⟩
          · exact .inl rfl
          · exact .inr ⟨.inr hq, hqp⟩
        · rintro (rfl | ⟨rfl | hq, hqp⟩)
          · exact .inr (.inl rfl)
          · exact .inl rfl
          · exact .inr (.inr ⟨hq, hqp⟩)

/-- Behind others a parameter prevails, and those that it does not replace still do. -/
theorem prevails_concat_iff :
  Prevails (all ++ [p]) q ↔ q = p ∨ Prevails all q ∧ q.key ≠ p.key
  := by
  rw [Prevails, Prevails, List.reverse_concat, List.find?_cons]
  by_cases hkey : p.key = q.key
  · simp [hkey, eq_comm]
  · have hne : q ≠ p := by
      rintro rfl
      apply hkey rfl
    simp [hkey, hne, Ne.symm hkey]

/-- A parameter of the operation prevails over all of the path item. -/
theorem Prevails.mem_owns (h : Prevails (commons ++ owns) p) (hown : ∃ o ∈ owns, o.key = p.key) :
  p ∈ owns
  := by
  obtain ⟨o, ho, hkey⟩ := hown
  have hsome : (owns.reverse.find? fun q => q.key = p.key).isSome = true := by
    rw [List.find?_isSome]
    exact ⟨o, List.mem_reverse.mpr ho, by simpa using hkey⟩
  rw [Prevails, List.reverse_append, List.find?_append, Option.or_of_isSome hsome] at h
  apply List.mem_reverse.mp (List.mem_of_find?_eq_some h)

/-- The last parameter is put in the place of one of the others. -/
theorem joined_concat (all : List Parameter) (p : Parameter) :
  joined (all ++ [p]) = overrideParameter p (joined all)
  := by
  rw [joined, List.foldl_concat]
  rfl

/-- The keys of joined parameters are those of all, in the order in which they first come. -/
theorem map_key_joined (all : List Parameter) :
  (joined all).map Parameter.key = (all.map Parameter.key).eraseDups
  := by
  induction all using List.reverseRecOn with
  | nil => rfl
  | append_singleton all p ih =>
      rw [joined_concat, map_key_overrideParameter, ih, List.map_append, List.eraseDups_append]
      generalize all.map Parameter.key = keys
      by_cases hp : p.key ∈ keys
      · simp [List.removeAll, hp]
      · simp [List.removeAll, hp, List.eraseDups_cons]

/-- No two joined parameters have one key. -/
theorem nodup_joined (all : List Parameter) :
  ((joined all).map Parameter.key).Nodup
  := by
  induction all using List.reverseRecOn with
  | nil => apply List.nodup_nil
  | append_singleton all p ih =>
      rw [joined_concat, map_key_overrideParameter]
      split_ifs with hp
      · apply ih
      · rw [← List.concat_eq_append]
        apply ih.concat hp

/-- Joined parameters are those that prevail. -/
theorem mem_joined_iff (all : List Parameter) :
  q ∈ joined all ↔ Prevails all q
  := by
  induction all using List.reverseRecOn with
  | nil => simp [joined, Prevails]
  | append_singleton all p ih =>
      rw [joined_concat, mem_overrideParameter_iff (nodup_joined all), prevails_concat_iff, ih]

/-- Parameters that are looked up one by one and put in the place of others are those that are
found, put in the place of others. -/
theorem foldlM_resolve (merged : List Parameter) (refs : List (RefOr Parameter)) :
  refs.foldlM
      (fun merged p => do
        let p ← r.resolve Parameter.decode? p
        .ok (overrideParameter p merged))
      merged =
    (refs.mapM (r.resolve Parameter.decode?)).map fun found =>
      found.foldl (fun merged p => overrideParameter p merged) merged
  := by
  induction refs generalizing merged with
  | nil => rfl
  | cons x refs ih =>
      rw [List.foldlM_cons, List.mapM_cons]
      cases r.resolve Parameter.decode? x with
      | error e => rfl
      | ok p =>
          change List.foldlM _ (overrideParameter p merged) refs = _
          rw [ih]
          cases refs.mapM (r.resolve Parameter.decode?) with
          | error e => rfl
          | ok found => rfl

/-- Joining fails only where a parameter cannot be looked up. -/
theorem joinParameters_eq (r : RefScope) (common own : List (RefOr Parameter)) :
  joinParameters r common own = (do
    let commons ← common.mapM (r.resolve Parameter.decode?)
    let owns ← own.mapM (r.resolve Parameter.decode?)
    .ok (joined (commons ++ owns)))
  := by
  rw [joinParameters, foldlM_resolve, List.mapM_append]
  cases common.mapM (r.resolve Parameter.decode?) with
  | error e => rfl
  | ok commons =>
      cases own.mapM (r.resolve Parameter.decode?) with
      | error e => rfl
      | ok owns => rfl

/-- The parameters of a path item and of an operation are joined as they are found. -/
theorem exists_of_joinParameters {common own : List (RefOr Parameter)}
    (h : joinParameters r common own = .ok merged) :
  ∃ commons owns, List.Forall₂ (r.LeadsTo Parameter.decode?) common commons ∧
    List.Forall₂ (r.LeadsTo Parameter.decode?) own owns ∧ merged = joined (commons ++ owns)
  := by
  have hleads {refs : List (RefOr Parameter)} {found : List Parameter}
      (hfound : refs.mapM (r.resolve Parameter.decode?) = .ok found) :
      List.Forall₂ (r.LeadsTo Parameter.decode?) refs found :=
    (mapM_eq_ok_iff.mp hfound).imp fun _ _ => RefScope.leadsTo_of_resolve
  rw [joinParameters_eq] at h
  obtain ⟨commons, hcommons, h⟩ := bind_eq_ok_iff.mp h
  obtain ⟨owns, howns, h⟩ := bind_eq_ok_iff.mp h
  cases h
  exact ⟨commons, owns, hleads hcommons, hleads howns, rfl⟩

end

/-! ### Adding arguments -/

/-- The names of arguments. -/
def namesOf (args : List Argument) : List String := args.map (·.name)

/-- Arguments are added behind others exactly if all the new names are different and none of them
is there already. -/
theorem addArguments_eq_ok_iff {clash : String → ArgumentError} {args more all : List Argument} :
  addArguments clash args more = .ok all ↔
    all = args ++ more ∧ (namesOf more).Nodup ∧ (namesOf more).Disjoint (namesOf args)
  := by
  induction more generalizing args with
  | nil =>
      rw [addArguments, List.append_nil, Except.ok.injEq, eq_comm]
      simp [namesOf]
  | cons a more ih =>
      have hany : (args.any fun b => b.name = a.name) = true ↔ a.name ∈ namesOf args := by
        simp only [namesOf, List.any_eq_true, decide_eq_true_eq, List.mem_map]
      have hcons : namesOf (a :: more) = a.name :: namesOf more := rfl
      have hconcat : namesOf (args ++ [a]) = namesOf args ++ [a.name] := by
        rw [namesOf, List.map_append]
        rfl
      rw [addArguments, hcons, List.nodup_cons, List.disjoint_cons_left]
      by_cases hmem : a.name ∈ namesOf args
      · rw [if_pos (hany.mpr hmem)]
        constructor
        · rintro ⟨⟩
        · rintro ⟨-, -, hnew, -⟩
          cases hnew hmem
      · rw [if_neg (hany.not.mpr hmem), ih, hconcat, List.append_assoc, List.singleton_append,
          List.disjoint_append_right, List.disjoint_singleton]
        tauto

/-- Arguments are added behind others if all their names are different. -/
theorem of_addArguments {clash : String → ArgumentError} {args more all : List Argument}
    (h : addArguments clash args more = .ok all) (hargs : (namesOf args).Nodup) :
  all = args ++ more ∧ (namesOf all).Nodup
  := by
  obtain ⟨rfl, hmore, hnew⟩ := addArguments_eq_ok_iff.mp h
  rw [namesOf, List.map_append]
  use rfl
  apply hargs.append hmore
  intro name hname hmem
  apply hnew hmem hname

/-! ### The argument for a parameter -/

/-- The JSON schema of what a parameter holds. -/
inductive HasSchema (r : RefScope) : ParameterFormat → Json → Prop
  /-- That of the schema without references. -/
  | schema {s : Schema} {v : Json} (h : (r.inline s).startingAt [] = .ok v) :
    HasSchema r (.schema s) v
  /-- That of texts. -/
  | content :
    HasSchema r .content (.obj [("type", .str "string")])

/-- An argument is the one for a parameter. -/
structure OfParameter (r : RefScope) (p : Parameter) (a : Argument) : Prop where
  /-- It has the name of the parameter. -/
  name : a.name = p.name
  /-- It goes where the parameter is taken from. -/
  position : a.position.text = p.place.text
  /-- It is required if the parameter is or is taken from the path. -/
  required : a.required = true ↔ p.place = .path ∨ p.required = true
  /-- It has the description of the parameter. -/
  description : a.description = p.description
  /-- Its schema is that of what the parameter holds, with the description. -/
  schema : ∃ v, HasSchema r p.format v ∧ a.schema = describe p.description v

section

variable {r : RefScope} {p : Parameter} {a : Argument} {args all : List Argument}

/-- Where an argument goes is where its parameter is taken from. -/
theorem text_of_parameterPosition {position : RequestPart}
    (h : parameterPosition p = .ok position) :
  position.text = p.place.text
  := by
  rw [parameterPosition] at h
  cases hplace : p.place with
  | path | query | header =>
      rw [hplace] at h
      cases h
      rfl
  | cookie =>
      rw [hplace] at h
      cases h

/-- An argument that is made for a parameter is the one for it. -/
theorem ofParameter_of_eq_ok (h : argumentOfParameter r p = .ok a) :
  OfParameter r p a
  := by
  obtain ⟨position, hposition, h⟩ := bind_eq_ok_iff.mp h
  have hmade : ∃ v, HasSchema r p.format v ∧ a =
      { name := p.name, position, required := p.place = .path || p.required,
        description := p.description, schema := describe p.description v } := by
    cases hformat : p.format with
    | schema s =>
        rw [hformat] at h
        obtain ⟨v, hv, h⟩ := bind_eq_ok_iff.mp h
        cases h
        exact ⟨v, .schema (mapError_eq_ok_iff.mp hv), rfl⟩
    | content =>
        rw [hformat] at h
        cases h
        exact ⟨_, .content, rfl⟩
  obtain ⟨v, hv, rfl⟩ := hmade
  constructor
  case name => rfl
  case position => apply text_of_parameterPosition hposition
  case required => simp
  case description => rfl
  case schema => use v, hv

/-- One argument is added for each of some parameters. -/
theorem exists_of_foldlM_argument {parameters : List Parameter}
    (h : parameters.foldlM
      (fun args p => do
        let a ← argumentOfParameter r p
        addArguments .repeated args [a])
      args = .ok all)
    (hargs : (namesOf args).Nodup) :
  ∃ more, List.Forall₂ (OfParameter r) parameters more ∧ all = args ++ more ∧
    (namesOf all).Nodup
  := by
  induction parameters generalizing args with
  | nil =>
      cases h
      exact ⟨[], .nil, (List.append_nil _).symm, hargs⟩
  | cons p parameters ih =>
      rw [List.foldlM_cons] at h
      obtain ⟨next, hnext, h⟩ := bind_eq_ok_iff.mp h
      obtain ⟨a, ha, hadd⟩ := bind_eq_ok_iff.mp hnext
      obtain ⟨rfl, hnew⟩ := of_addArguments hadd hargs
      obtain ⟨more, hmore, rfl, hall⟩ := ih h hnew
      use a :: more, .cons (ofParameter_of_eq_ok ha) hmore
      rw [List.append_assoc] at hall ⊢
      exact ⟨rfl, hall⟩

end

/-! ### The arguments for a body -/

namespace OpenApi.RefScope.Walk

variable {α β : Type} {chain : List String} {w : Walk α} {x : Except RefError α}

/-- What comes of a walk behind another begins with what that one gives. -/
theorem Gives.startingAt_bind (h : Gives chain w x) (f : α → Walk β) :
  (w >>= f).startingAt chain = x >>= fun a => (f a).startingAt chain
  := by
  rw [startingAt, ExceptT.run_bind, StateT.run_bind, h]
  cases x with
  | error e => rfl
  | ok a => rfl

/-- What comes of a walk is passed on as it is. -/
theorem startingAt_map (w : Walk α) (f : α → β) (chain : List String) :
  (w >>= fun a => pure (f a)).startingAt chain = (w.startingAt chain).map f
  := by
  rw [startingAt, startingAt, ExceptT.run_bind, StateT.run_bind]
  generalize w.run.run chain = result
  obtain ⟨x, chain'⟩ := result
  cases x with
  | error e => rfl
  | ok a => rfl

end OpenApi.RefScope.Walk

/-- The reference by way of which a schema is found, if it is one. -/
def opened : Schema → List String
  | .ref target => [target]
  | _ => []

/-- An argument is the one for a property of a body. -/
structure OfProperty (r : RefScope) (chain : List String) (body : RequestBody)
    (required : List String) (property : String × Schema) (a : Argument) : Prop where
  /-- It has the name of the property. -/
  name : a.name = property.1
  /-- It goes into the body. -/
  position : a.position = .body
  /-- It is required if the body is and lists the property. -/
  required : a.required = true ↔ body.required = true ∧ property.1 ∈ required
  /-- Its schema is that of the property without references. -/
  schema : (r.inline property.2).startingAt chain = .ok a.schema
  /-- It has the description that the schema holds. -/
  description : a.description = schemaDescription a.schema

/-- An argument is the one for a whole body of a schema. -/
structure OfWhole (r : RefScope) (chain : List String) (body : RequestBody) (s : Schema)
    (a : Argument) : Prop where
  /-- It has a name of its own. -/
  name : a.name = "body"
  /-- It goes into the body. -/
  position : a.position = .body
  /-- It is required if the body is. -/
  required : a.required = body.required
  /-- Its schema is that of the body without references. -/
  schema : (r.inline s).startingAt chain = .ok a.schema
  /-- It has the description of the body. -/
  description : a.description = body.description

/-- Arguments are the ones for a body in JSON of a schema. -/
inductive OfContent (r : RefScope) (chain : List String) (body : RequestBody) :
    Schema → List Argument → Prop
  /-- An object has one for each of its properties. -/
  | object {notes : Notes} {properties : List (String × Schema)} {required : List String}
    {args : List Argument}
    (each : List.Forall₂ (OfProperty r chain body required) properties args) :
    OfContent r chain body (.object notes properties required) args
  /-- Anything else has one for all of it. -/
  | whole {s : Schema} {a : Argument}
    (other : ∀ notes properties required, s ≠ .object notes properties required)
    (all : OfWhole r chain body s a) :
    OfContent r chain body s [a]

/-- Arguments are the ones for the body of a request. -/
inductive OfBody (r : RefScope) : Option (RefOr RequestBody) → List Argument → Prop
  /-- There is no body. -/
  | none :
    OfBody r none []
  /-- The body has no schema for JSON. -/
  | unknown {x : RefOr RequestBody} {body : RequestBody}
    (found : r.LeadsTo RequestBody.decode? x body) (no : jsonBodySchema? body = .none) :
    OfBody r (some x) []
  /-- The body has a schema for JSON. -/
  | json {x : RefOr RequestBody} {body : RequestBody} {s resolved : Schema}
    {args : List Argument} (found : r.LeadsTo RequestBody.decode? x body)
    (schema : jsonBodySchema? body = some s)
    (leads : r.LeadsTo Schema.decode? (RefOr.ofSchema s) resolved)
    (content : OfContent r (opened s) body resolved args) :
    OfBody r (some x) args

section

variable {r : RefScope} {chain : List String} {body : RequestBody} {args : List Argument}

/-- One argument is made for each property. -/
theorem forall₂_of_argumentsOfProperties {required : List String}
    {properties : List (String × Schema)}
    (h : (argumentsOfProperties r body.required required properties).startingAt chain = .ok args) :
  List.Forall₂ (OfProperty r chain body required) properties args
  := by
  induction properties generalizing args with
  | nil =>
      cases h
      exact .nil
  | cons property properties ih =>
      obtain ⟨name, s⟩ := property
      rw [argumentsOfProperties, (r.gives_inline s chain).startingAt_bind] at h
      obtain ⟨v, hv, h⟩ := bind_eq_ok_iff.mp h
      rw [RefScope.Walk.startingAt_map] at h
      obtain ⟨rest, hrest, rfl⟩ := map_eq_ok_iff.mp h
      apply List.Forall₂.cons _ (ih hrest)
      constructor
      case name => rfl
      case position => rfl
      case required => simp
      case schema => apply hv
      case description => rfl

/-- The one argument that is made for a whole body is the one for it. -/
theorem ofContent_of_inline {s : Schema}
    (other : ∀ notes properties required, s ≠ .object notes properties required)
    (h : ((r.inline s).startingAt chain >>= fun schema =>
      .ok [(⟨"body", .body, body.required, body.description, schema⟩ : Argument)]) = .ok args) :
  OfContent r chain body s args
  := by
  obtain ⟨v, hv, h⟩ := bind_eq_ok_iff.mp h
  cases h
  exact .whole other ⟨rfl, rfl, rfl, hv, rfl⟩

/-- The arguments that are made for a body are the ones for it. -/
theorem ofBody_of_argumentsOfBody {x : RefOr RequestBody}
    (found : r.LeadsTo RequestBody.decode? x body) (h : argumentsOfBody r body = .ok args) :
  OfBody r (some x) args
  := by
  rw [argumentsOfBody] at h
  cases hschema : jsonBodySchema? body with
  | none =>
      rw [hschema] at h
      cases h
      apply OfBody.unknown found hschema
  | some s =>
      rw [hschema] at h
      obtain ⟨resolved, hresolved, h⟩ := bind_eq_ok_iff.mp h
      apply OfBody.json found hschema (RefScope.leadsTo_of_resolve hresolved)
      cases resolved with
      | object notes properties required =>
          apply OfContent.object
          apply forall₂_of_argumentsOfProperties h
      | ref _ | string _ _ | primitive _ _ | array _ _ | combined _ _ _ | negated _ _ | any _ =>
          apply ofContent_of_inline _ h
          rintro _ _ _ ⟨⟩

end

/-! ### The input schema -/

/-- An input schema is one of objects that hold arguments. -/
structure Describes (schema : Json) (args : List Argument) : Prop where
  /-- It is one of objects. -/
  type : schema.get? "type" = some (.str "object")
  /-- Its properties are the names of the arguments with their schemas. -/
  properties : ∃ members, schema.get? "properties" = some (.obj members) ∧
    Json.Ascending members ∧ ∀ m, m ∈ members ↔ ∃ a ∈ args, m = (a.name, a.schema)
  /-- It requires the required arguments in their order. -/
  required : schema.get? "required" =
    if ∃ a ∈ args, a.required = true then
      some (.arr ((args.filter (·.required)).map fun a => .str a.name))
    else none

/-- The input schema that is made for arguments of different names describes them. -/
theorem describes_inputSchemaOf {args : List Argument} (h : (namesOf args).Nodup) :
  Describes (inputSchemaOf args) args
  := by
  have hkeys : ((args.map fun a => (a.name, a.schema)).map Prod.fst).Nodup := by
    rw [List.map_map]
    apply h
  constructor
  case type =>
    rw [inputSchemaOf, Schema.listMember]
    split_ifs
    · rfl
    · rfl
  case properties =>
    refine ⟨_, rfl, Json.ascending_sortMembers _, ?_⟩
    intro m
    rw [Json.mem_sortMembers_iff hkeys, List.mem_map]
    simp only [eq_comm]
  case required =>
    have hnone : ((args.filter (·.required)).map fun a => Json.str a.name).isEmpty = true ↔
        ¬ ∃ a ∈ args, a.required = true := by
      simp
    by_cases hany : ∃ a ∈ args, a.required = true
    · rw [inputSchemaOf, Schema.listMember, if_neg (hnone.not.mpr (not_not.mpr hany)), if_pos hany]
      rfl
    · rw [inputSchemaOf, Schema.listMember, if_pos (hnone.mpr hany), if_neg hany]
      rfl

/-! ### Operations -/

section

variable {r : RefScope} {common : List (RefOr Parameter)} {op : Operation} {args : List Argument}

/-- The arguments that are made for an operation are the ones for the parameters that prevail
and behind these the ones for its body, all of different names. -/
theorem exists_of_argumentsOfOperation (h : argumentsOfOperation r common op = .ok args) :
  ∃ commons owns fromParameters fromBody,
    List.Forall₂ (r.LeadsTo Parameter.decode?) common commons ∧
    List.Forall₂ (r.LeadsTo Parameter.decode?) op.parameters owns ∧
    List.Forall₂ (OfParameter r) (joined (commons ++ owns)) fromParameters ∧
    OfBody r op.requestBody fromBody ∧
    args = fromParameters ++ fromBody ∧ (namesOf args).Nodup
  := by
  rw [argumentsOfOperation] at h
  obtain ⟨merged, hmerged, h⟩ := bind_eq_ok_iff.mp h
  obtain ⟨commons, owns, hcommons, howns, rfl⟩ :=
    exists_of_joinParameters (mapError_eq_ok_iff.mp hmerged)
  obtain ⟨fromParameters, hfold, h⟩ := bind_eq_ok_iff.mp h
  obtain ⟨_, hparameters, rfl, hnodup⟩ := exists_of_foldlM_argument hfold List.nodup_nil
  cases hbody : op.requestBody with
  | none =>
      rw [hbody] at h
      cases h
      use commons, owns, args, [], hcommons, howns, hparameters, .none
      exact ⟨(List.append_nil _).symm, hnodup⟩
  | some x =>
      rw [hbody] at h
      obtain ⟨body, hfound, h⟩ := bind_eq_ok_iff.mp h
      obtain ⟨fromBody, hmade, h⟩ := bind_eq_ok_iff.mp h
      have found := RefScope.leadsTo_of_resolve (mapError_eq_ok_iff.mp hfound)
      obtain ⟨rfl, hall⟩ := of_addArguments h hnodup
      use commons, owns, fromParameters, fromBody, hcommons, howns, hparameters
      exact ⟨ofBody_of_argumentsOfBody found (mapError_eq_ok_iff.mp hmade), rfl, hall⟩

/-- A tool has one argument for each key among the parameters that those of the path item and
of the operation lead to, in the order in which the keys first come, for the last parameter
with the key, which is one of the operation if it has any.  Behind these stand the arguments
for the body.  All names are different, and the input schema describes the arguments. -/
theorem arguments_of_toolOf {taken : List String} {path : String} {method : Method} {tool : Tool}
    (h : toolOf r taken path common method op = .ok tool) :
  ∃ commons owns chosen fromParameters fromBody,
    List.Forall₂ (r.LeadsTo Parameter.decode?) common commons ∧
    List.Forall₂ (r.LeadsTo Parameter.decode?) op.parameters owns ∧
    chosen.map Parameter.key = ((commons ++ owns).map Parameter.key).eraseDups ∧
    (∀ p ∈ chosen, Prevails (commons ++ owns) p ∧
      ((∃ o ∈ owns, o.key = p.key) → p ∈ owns)) ∧
    List.Forall₂ (OfParameter r) chosen fromParameters ∧
    OfBody r op.requestBody fromBody ∧
    tool.args = fromParameters ++ fromBody ∧
    (namesOf tool.args).Nodup ∧
    Describes tool.inputSchema tool.args
  := by
  rw [toolOf] at h
  obtain ⟨args, hargs, h⟩ := bind_eq_ok_iff.mp h
  cases h
  obtain ⟨commons, owns, fromParameters, fromBody, hcommons, howns, hparameters, hbody, hsplit,
    hnodup⟩ := exists_of_argumentsOfOperation (mapError_eq_ok_iff.mp hargs)
  use commons, owns, joined (commons ++ owns), fromParameters, fromBody, hcommons, howns,
    map_key_joined _
  constructor
  · intro p hp
    have hprevails := (mem_joined_iff _).mp hp
    exact ⟨hprevails, hprevails.mem_owns⟩
  · exact ⟨hparameters, hbody, hsplit, hnodup, describes_inputSchemaOf hnodup⟩

end

/-- A document with a parameter that operations refer to. -/
def limitScope : RefScope where
  root := .obj
    [("limit", .obj
      [("in", .str "query"), ("name", .str "limit"), ("schema", .obj [("type", .str "integer")])])]

/-- The parameters of a path item: a reference and one that is taken from the path. -/
def petParameters : List (RefOr Parameter) :=
  [.ref "#/limit", .inline ⟨"id", .path, false, none, .content⟩]

/-- An operation with a parameter of its own for the reference and a body of two
properties. -/
def petOperation : Operation where
  operationId := none
  summary := none
  description := none
  parameters := [.inline ⟨"limit", .query, true, none, .content⟩]
  requestBody := some (.inline
    { description := none
      required := true
      content := [("application/json", some (.object ⟨none, none⟩
        [("tag", .any ⟨none, none⟩), ("name", .any ⟨none, none⟩)] ["name"]))] })

/-- The tool for the operation has four arguments, of which the one from the reference is the
operation's own. -/
theorem toolOf_petOperation :
  ((toolOf limitScope [] "/pets" petParameters .post petOperation).map fun t =>
    t.args.map fun a => (a.name, a.required)) =
    .ok [("limit", true), ("id", true), ("tag", false), ("name", true)]
  := by
  decide +kernel

/-- The tool for the operation requires three of its arguments. -/
theorem describes_petOperation :
  ∃ t, toolOf limitScope [] "/pets" petParameters .post petOperation = .ok t ∧
    (namesOf t.args).Nodup ∧
    Describes t.inputSchema t.args ∧
    t.args.map (fun a => (a.name, a.required)) =
      [("limit", true), ("id", true), ("tag", false), ("name", true)]
  := by
  obtain ⟨t, ht, hargs⟩ := map_eq_ok_iff.mp toolOf_petOperation
  obtain ⟨_, _, _, _, _, _, _, _, _, _, _, _, hnodup, hdescribes⟩ := arguments_of_toolOf ht
  use t, ht, hnodup, hdescribes, hargs

end ApiIntake
