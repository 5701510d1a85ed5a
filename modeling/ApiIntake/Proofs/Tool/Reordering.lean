import ApiIntake.Proofs.Json.Sorted
import ApiIntake.Proofs.Tool.Arguments
import ApiIntake.Proofs.Tool.Ending

/-!
# Properties in another order

Two schemas that are the same but for the order of the properties of objects
(`Schema.Reordered`) have the same JSON schema, or none of them has one
(`Schema.Reordered.render_eq_ok_iff`).
-/

namespace ApiIntake

open ApiIntake.OpenApi

/-! ### Lists of outcomes -/

section

variable {α β γ ε : Type} {f : α → Except ε γ} {g : β → Except ε γ} {l m : List α} {l' : List β}
  {cs : List γ}

/-- Computations that succeed alike one by one succeed alike. -/
theorem mapM_eq_ok_congr (h : List.Forall₂ (fun a b => ∀ c, f a = .ok c ↔ g b = .ok c) l l') :
  l.mapM f = .ok cs ↔ l'.mapM g = .ok cs
  := by
  induction h generalizing cs with
  | nil => rw [List.mapM_nil, List.mapM_nil]
  | cons hab _ ih =>
      rw [mapM_eq_ok_iff, mapM_eq_ok_iff, List.forall₂_cons_left_iff, List.forall₂_cons_left_iff]
      simp only [hab, ← mapM_eq_ok_iff, ih]

/-- Computations in another order succeed with the results in another order. -/
theorem exists_perm_of_mapM (hp : l.Perm m) (h : l.mapM f = .ok cs) :
  ∃ cs', m.mapM f = .ok cs' ∧ cs.Perm cs'
  := by
  obtain ⟨cs', hcs', hperm⟩ := List.perm_comp_forall₂ hp.symm (mapM_eq_ok_iff.mp h)
  exact ⟨cs', mapM_eq_ok_iff.mpr hcs', hperm.symm⟩

end

/-- Tables have the same keys if their entries have, one by one. -/
theorem map_fst_eq_iff {α β : Type} {table : List (String × α)} {table' : List (String × β)} :
  table.map Prod.fst = table'.map Prod.fst ↔
    List.Forall₂ (fun p p' => p.1 = p'.1) table table'
  := by
  rw [← List.forall₂_eq_eq_eq, List.forall₂_map_left_iff, List.forall₂_map_right_iff]

/-- Entries of tables that are the same but for their order and for things that make no
difference lead to the same results but for their order. -/
theorem exists_perm_of_tables {α γ ε : Type} {f : String × α → Except ε γ}
    {table between table' : List (String × α)}
    (names : table.map Prod.fst = between.map Prod.fst)
    (each : ∀ p p', (p, p') ∈ table.zip between → p.1 = p'.1 → ∀ c, f p = .ok c ↔ f p' = .ok c)
    (perm : between.Perm table') :
  (∀ cs, table.mapM f = .ok cs → ∃ cs', table'.mapM f = .ok cs' ∧ cs.Perm cs') ∧
    ∀ cs, table'.mapM f = .ok cs → ∃ cs', table.mapM f = .ok cs' ∧ cs.Perm cs'
  := by
  have hnames := map_fst_eq_iff.mp names
  have hbetween (cs : List γ) : table.mapM f = .ok cs ↔ between.mapM f = .ok cs := by
    apply mapM_eq_ok_congr (List.forall₂_iff_zip.mpr ⟨hnames.length_eq, _⟩)
    intro p p' hp
    apply each p p' hp (List.forall₂_zip hnames hp)
  simp only [hbetween]
  constructor
  · intro cs
    apply exists_perm_of_mapM perm
  · intro cs
    apply exists_perm_of_mapM perm.symm

namespace OpenApi.Schema

/-- Two schemas are the same but for the order of the properties of the objects in them. -/
inductive Reordered : Schema → Schema → Prop
  /-- They are the same. -/
  | same (s : Schema) :
    Reordered s s
  /-- They are arrays of such schemas. -/
  | array {notes : Notes} {items items' : Schema} (h : Reordered items items') :
    Reordered (.array notes (some items)) (.array notes (some items'))
  /-- They are objects with such schemas for properties, which may stand in another order. -/
  | object {notes : Notes} {required : List String}
    {properties between properties' : List (String × Schema)}
    (nodup : (properties.map Prod.fst).Nodup)
    (names : properties.map Prod.fst = between.map Prod.fst)
    (each : ∀ p p', (p, p') ∈ properties.zip between → Reordered p.2 p'.2)
    (perm : between.Perm properties') :
    Reordered (.object notes properties required) (.object notes properties' required)
  /-- They combine such schemas in the same way. -/
  | combined {notes : Notes} {how : Combination} {parts parts' : List Schema}
    (length : parts.length = parts'.length)
    (each : ∀ s s', (s, s') ∈ parts.zip parts' → Reordered s s') :
    Reordered (.combined notes how parts) (.combined notes how parts')
  /-- They negate such schemas. -/
  | negated {notes : Notes} {part part' : Schema} (h : Reordered part part') :
    Reordered (.negated notes part) (.negated notes part')

variable {s s' : Schema} {properties properties' : List (String × Json)} {required : List String}

/-- The JSON schema of an object does not depend on the order of the properties. -/
theorem objectSchema_congr (notes : Notes) (required : List String)
    (h : (properties.map Prod.fst).Nodup) (hp : properties.Perm properties') :
  objectSchema notes properties required = objectSchema notes properties' required
  := by
  rw [objectSchema, objectSchema, Json.sortMembers_congr h hp]
  cases properties with
  | nil => rw [hp.nil_eq]
  | cons p rest =>
      cases properties' with
      | nil => cases hp.eq_nil
      | cons p' rest' => rfl

section

variable {ε : Type} {onRef : String → Except ε Json}

/-- The JSON schemas of the properties have their names. -/
theorem map_fst_of_renderTable {table : List (String × Schema)}
    (h : table.mapM (fun p => (p.1, ·) <$> p.2.render onRef) = .ok properties) :
  properties.map Prod.fst = table.map Prod.fst
  := by
  have hnames := mapM_eq_ok_iff.mp h
  induction hnames with
  | nil => rfl
  | cons hp hrest ih =>
      obtain ⟨j, -, rfl⟩ := map_eq_ok_iff.mp hp
      rw [List.map_cons, List.map_cons, ih (mapM_eq_ok_iff.mpr hrest)]

/-- Schemas that differ in the order of properties have the same JSON schema, if any. -/
theorem Reordered.render_eq_ok_iff (h : Reordered s s') :
  ∀ j, s.render onRef = .ok j ↔ s'.render onRef = .ok j
  := by
  induction h with
  | same s =>
      intro j
      rfl
  | array _ ih =>
      intro j
      rw [render, render, bind_eq_ok_iff, bind_eq_ok_iff]
      simp only [ih]
  | negated _ ih =>
      intro j
      rw [render, render, bind_eq_ok_iff, bind_eq_ok_iff]
      simp only [ih]
  | combined length each ih =>
      intro j
      rw [render, render, bind_eq_ok_iff, bind_eq_ok_iff, renderList_eq_mapM, renderList_eq_mapM]
      apply exists_congr
      intro items
      apply and_congr_left'
      apply mapM_eq_ok_congr (List.forall₂_iff_zip.mpr ⟨length, _⟩)
      intro s s' hs
      apply ih s s' hs
  | @object notes required properties between properties' nodup names each perm ih =>
      intro j
      rw [render, render, bind_eq_ok_iff, bind_eq_ok_iff, renderTable_eq_mapM, renderTable_eq_mapM]
      obtain ⟨hto, hfrom⟩ := exists_perm_of_tables
        (f := fun p : String × Schema => (p.1, ·) <$> p.2.render onRef) names (by
          intro p p' hp hname item
          change (p.2.render onRef).map _ = _ ↔ (p'.2.render onRef).map _ = _
          rw [map_eq_ok_iff, map_eq_ok_iff, hname]
          simp only [ih p p' hp]) perm
      have hschema {table : List (String × Schema)} {items items' : List (String × Json)}
          (hnodup : (table.map Prod.fst).Nodup)
          (hitems : (table.mapM fun p => (p.1, ·) <$> p.2.render onRef) = .ok items)
          (hp : items.Perm items') :
          objectSchema notes items required = objectSchema notes items' required := by
        apply objectSchema_congr notes required _ hp
        rw [map_fst_of_renderTable hitems]
        apply hnodup
      have hnodup' : (properties'.map Prod.fst).Nodup := by
        rw [← (perm.map Prod.fst).nodup_iff, ← names]
        apply nodup
      constructor
      · rintro ⟨items, hitems, hj⟩
        obtain ⟨items', hitems', hp⟩ := hto items hitems
        rw [hschema nodup hitems hp] at hj
        exact ⟨items', hitems', hj⟩
      · rintro ⟨items, hitems, hj⟩
        obtain ⟨items', hitems', hp⟩ := hfrom items hitems
        rw [hschema hnodup' hitems hp] at hj
        exact ⟨items', hitems', hj⟩

end

end OpenApi.Schema

/-! ### The same arguments -/

/-- Two attempts to make arguments have the same outcome but for their order: both fail, or both
make the same arguments. -/
inductive SameArguments {ε : Type} :
    Except ε (List Argument) → Except ε (List Argument) → Prop
  /-- Both fail. -/
  | failed (e e' : ε) :
    SameArguments (.error e) (.error e')
  /-- Both make the same arguments. -/
  | made {args args' : List Argument} (perm : args.Perm args') :
    SameArguments (.ok args) (.ok args')

section

variable {ε : Type} {x y : Except ε (List Argument)} {args more more' all : List Argument}
  {clash : String → ArgumentError} {r : RefScope} {chain : List String}

/-- Attempts that make the same lists of arguments have the same outcome. -/
theorem SameArguments.of_iff (h : ∀ args, x = .ok args ↔ y = .ok args) :
  SameArguments x y
  := by
  cases x with
  | ok args =>
      rw [(h args).mp rfl]
      apply SameArguments.made (List.Perm.refl args)
  | error e =>
      cases y with
      | ok args => cases (h args).mpr rfl
      | error e' => apply SameArguments.failed

/-- Attempts of which each makes the arguments of the other in some order have the same
outcome. -/
theorem SameArguments.of_perm
    (h : ∀ args, x = .ok args → ∃ args', y = .ok args' ∧ args.Perm args')
    (h' : ∀ args, y = .ok args → ∃ args', x = .ok args' ∧ args.Perm args') :
  SameArguments x y
  := by
  cases x with
  | ok args =>
      obtain ⟨args', rfl, hp⟩ := h args rfl
      apply SameArguments.made hp
  | error e =>
      cases y with
      | ok args =>
          obtain ⟨args', heq, -⟩ := h' args rfl
          cases heq
      | error e' => apply SameArguments.failed

/-- Arguments in another order are added behind others with the same outcome. -/
theorem SameArguments.addArguments (hp : more.Perm more') :
  SameArguments (addArguments clash args more) (addArguments clash args more')
  := by
  have hside {more more' : List Argument} (hp : more.Perm more') (all : List Argument)
      (h : ApiIntake.addArguments clash args more = .ok all) :
      ∃ all', ApiIntake.addArguments clash args more' = .ok all' ∧ all.Perm all' := by
    obtain ⟨rfl, hnodup, hnew⟩ := addArguments_eq_ok_iff.mp h
    have hnames : (namesOf more).Perm (namesOf more') := hp.map _
    use args ++ more'
    constructor
    · apply addArguments_eq_ok_iff.mpr ⟨rfl, hnames.nodup_iff.mp hnodup, _⟩
      intro name hname
      apply hnew (hnames.mem_iff.mpr hname)
    · apply hp.append_left
  apply SameArguments.of_perm (hside hp) (hside hp.symm)

/-- Attempts that have the same outcome whatever one step before gives have it behind that step. -/
theorem SameArguments.bind {α : Type} {z : Except ε α} {f g : α → Except ε (List Argument)}
    (h : ∀ a, SameArguments (f a) (g a)) :
  SameArguments (z >>= f) (z >>= g)
  := by
  cases z with
  | error e => apply SameArguments.failed
  | ok a => apply h

/-- The same arguments for the body of a request are added behind others with the same outcome. -/
theorem SameArguments.addBody {x y : Except RefError (List Argument)} (h : SameArguments x y) :
  SameArguments (ArgumentError.ofRef x >>= ApiIntake.addArguments clash args)
    (ArgumentError.ofRef y >>= ApiIntake.addArguments clash args)
  := by
  cases h with
  | failed e e' => apply SameArguments.failed
  | made hp => apply SameArguments.addArguments hp

/-- The arguments for the properties of a body are made one by one. -/
theorem startingAt_argumentsOfProperties (bodyRequired : Bool) (required : List String)
    (properties : List (String × Schema)) :
  (argumentsOfProperties r bodyRequired required properties).startingAt chain =
    properties.mapM fun p => ((r.inline p.2).startingAt chain).map fun schema =>
      { name := p.1, position := .body, required := bodyRequired && required.contains p.1,
        description := schemaDescription schema, schema }
  := by
  induction properties with
  | nil => rfl
  | cons p rest ih =>
      obtain ⟨name, s⟩ := p
      rw [argumentsOfProperties, (r.gives_inline s chain).startingAt_bind, List.mapM_cons, ← ih]
      cases (r.inline s).startingAt chain with
      | error e => rfl
      | ok schema =>
          change RefScope.Walk.startingAt chain _ = _
          rw [RefScope.Walk.startingAt_map]
          rfl

/-- Without references, schemas that differ in the order of properties are the same. -/
theorem startingAt_inline_of_reordered {s s' : Schema} (h : Schema.Reordered s s') (j : Json) :
  (r.inline s).startingAt chain = .ok j ↔ (r.inline s').startingAt chain = .ok j
  := by
  rw [r.startingAt_inline, r.startingAt_inline]
  apply h.render_eq_ok_iff

/-- Where no reference has to be followed, a thing is resolved to itself. -/
theorem resolve_inline {α : Type} (r : RefScope) (decode? : Yaml.Value → Option (RefOr α)) (a : α) :
  r.resolve decode? (.inline a) = .ok a
  := by
  rw [RefScope.resolve, RefScope.linkBound, RefScope.chase]

/-- Bodies of which the schemas differ in the order of properties have the same arguments but for
their order. -/
theorem SameArguments.argumentsOfBody {body body' : RequestBody} {s s' : Schema}
    (hdescription : body'.description = body.description)
    (hrequired : body'.required = body.required) (hs : jsonBodySchema? body = some s)
    (hs' : jsonBodySchema? body' = some s') (h : Schema.Reordered s s') :
  SameArguments (argumentsOfBody r body) (argumentsOfBody r body')
  := by
  have hwhole (t t' : Schema) (ht : Schema.Reordered t t') :
      SameArguments
        ((r.inline t).startingAt [] >>= fun schema => .ok
          [(⟨"body", .body, body.required, body.description, schema⟩ : Argument)])
        ((r.inline t').startingAt [] >>= fun schema => .ok
          [(⟨"body", .body, body.required, body.description, schema⟩ : Argument)]) := by
    apply SameArguments.of_iff
    intro args
    rw [bind_eq_ok_iff, bind_eq_ok_iff]
    simp only [startingAt_inline_of_reordered ht]
  rw [ApiIntake.argumentsOfBody, ApiIntake.argumentsOfBody, hs, hs', hdescription, hrequired]
  cases h with
  | same s =>
      apply SameArguments.of_iff
      intro args
      rfl
  | @array notes items items' h =>
      simp only [RefOr.ofSchema, resolve_inline]
      apply hwhole _ _ (.array h)
  | @combined notes how parts parts' length each =>
      simp only [RefOr.ofSchema, resolve_inline]
      apply hwhole _ _ (.combined length each)
  | @negated notes part part' h =>
      simp only [RefOr.ofSchema, resolve_inline]
      apply hwhole _ _ (.negated h)
  | @object notes required properties between properties' nodup names each perm =>
      simp only [RefOr.ofSchema, resolve_inline]
      change SameArguments
        ((argumentsOfProperties r body.required required properties).startingAt [])
        ((argumentsOfProperties r body.required required properties').startingAt [])
      rw [startingAt_argumentsOfProperties, startingAt_argumentsOfProperties]
      obtain ⟨hto, hfrom⟩ := exists_perm_of_tables (f := fun p : String × Schema =>
        ((r.inline p.2).startingAt []).map fun schema =>
          ({ name := p.1, position := .body, required := body.required && required.contains p.1,
             description := schemaDescription schema, schema } : Argument)) names (by
        intro p p' hp hname a
        rw [map_eq_ok_iff, map_eq_ok_iff, hname]
        simp only [startingAt_inline_of_reordered (each p p' hp)]) perm
      apply SameArguments.of_perm hto hfrom

end

end ApiIntake
