import ApiIntake.Proofs.Conversion.Reading
import ApiIntake.Proofs.Conversion.Rejection
import ApiIntake.Proofs.Tool.Arguments

/-!
# Parameters with one place and name

Of all parameters of one place and name, those of the path item first, only the last one counts
(`last_parameters_count`).  It makes no difference whether these are one of the path item and one
of the operation, or several of the operation (`converts_twiceText`).  An operation is refused for
parameters with one name only if their places differ.
-/

namespace ApiIntake

open ApiIntake.OpenApi

section

variable {r : RefScope} {common own : List (RefOr Parameter)} {chosen : List Parameter}
  {p q : Parameter} {op : Operation} {args : List Argument} {name : String}

/-! ### Joining -/

/-- A parameter stands behind others if none of them has its key. -/
theorem overrideParameter_of_notMem (h : p.key ∉ chosen.map Parameter.key) :
  overrideParameter p chosen = chosen ++ [p]
  := by
  induction chosen with
  | nil => rfl
  | cons q chosen ih =>
      rw [List.map_cons, List.mem_cons, not_or] at h
      rw [overrideParameter_cons, if_neg (Ne.symm h.1), ih h.2, List.cons_append]

/-- Parameters of different keys stay as they are. -/
theorem joined_of_nodup (h : (chosen.map Parameter.key).Nodup) :
  joined chosen = chosen
  := by
  induction chosen using List.reverseRecOn with
  | nil => rfl
  | append_singleton chosen p ih =>
      rw [List.map_append, List.map_singleton, List.nodup_append] at h
      obtain ⟨hchosen, -, hne⟩ := h
      rw [joined_concat, ih hchosen]
      apply overrideParameter_of_notMem
      intro hp
      apply hne _ hp _ (List.mem_singleton_self _) rfl

/-- Things themselves are looked up as they are. -/
theorem mapM_resolve_inline (chosen : List Parameter) :
  (chosen.map RefOr.inline).mapM (r.resolve Parameter.decode?) = .ok chosen
  := by
  induction chosen with
  | nil => rfl
  | cons p chosen ih =>
      rw [List.map_cons, List.mapM_cons, ih]
      rfl

/-- The arguments of an operation are those that it would have if it had no other parameters than
the last ones of their keys. -/
theorem argumentsOfOperation_eq (r : RefScope) (common : List (RefOr Parameter)) (op : Operation) :
  argumentsOfOperation r common op = (do
    let commons ← ArgumentError.ofRef (common.mapM (r.resolve Parameter.decode?))
    let owns ← ArgumentError.ofRef (op.parameters.mapM (r.resolve Parameter.decode?))
    argumentsOfOperation r []
      { op with parameters := (joined (commons ++ owns)).map RefOr.inline })
  := by
  have hchosen (chosen : List Parameter) (h : (chosen.map Parameter.key).Nodup) :
      joinParameters r [] (chosen.map RefOr.inline) = .ok chosen := by
    rw [joinParameters_eq, mapM_resolve_inline]
    change Except.ok (joined chosen) = _
    rw [joined_of_nodup h]
  rw [argumentsOfOperation, joinParameters_eq]
  cases common.mapM (r.resolve Parameter.decode?) with
  | error e => rfl
  | ok commons =>
      cases op.parameters.mapM (r.resolve Parameter.decode?) with
      | error e => rfl
      | ok owns =>
          change _ = argumentsOfOperation r []
            { op with parameters := (joined (commons ++ owns)).map RefOr.inline }
          rw [argumentsOfOperation, hchosen _ (nodup_joined _)]
          rfl

/-! ### Repeated names -/

/-- No name is repeated where a reference is followed. -/
theorem ofRef_ne_repeated {α : Type} {x : Except RefError α} :
  ArgumentError.ofRef x ≠ .error (.repeated name)
  := by
  rw [ArgumentError.ofRef]
  cases x with
  | error e => rintro ⟨⟩
  | ok a => rintro ⟨⟩

/-- No name is repeated where the argument for a single parameter is made. -/
theorem argumentOfParameter_ne_repeated :
  argumentOfParameter r p ≠ .error (.repeated name)
  := by
  intro h
  obtain hposition | ⟨position, -, h⟩ := bind_eq_error_iff.mp h
  · rw [parameterPosition] at hposition
    split at hposition
    all_goals cases hposition
  · cases hformat : p.format with
    | schema s =>
        rw [hformat] at h
        obtain h | ⟨v, -, h⟩ := bind_eq_error_iff.mp h
        · cases ofRef_ne_repeated h
        · cases h
    | content =>
        rw [hformat] at h
        cases h

/-- One argument is added behind others unless its name is there. -/
theorem addArguments_singleton (clash : String → ArgumentError) (args : List Argument)
    (a : Argument) :
  addArguments clash args [a] =
    if a.name ∈ namesOf args then .error (clash a.name) else .ok (args ++ [a])
  := by
  simp only [addArguments, namesOf, List.any_eq_true, decide_eq_true_eq, List.mem_map]

/-- Where the argument for a parameter has a name that is there already, this is the name of the
parameter, and it is the name of an argument that was there before or of an earlier parameter. -/
theorem exists_of_foldlM_repeated
    (h : chosen.foldlM
      (fun args p => do
        let a ← argumentOfParameter r p
        addArguments .repeated args [a])
      args = .error (.repeated name)) :
  ∃ before p after, chosen = before ++ p :: after ∧ p.name = name ∧
    (name ∈ namesOf args ∨ ∃ q ∈ before, q.name = name)
  := by
  induction chosen generalizing args with
  | nil => cases h
  | cons p chosen ih =>
      rw [List.foldlM_cons] at h
      obtain hstep | ⟨next, hstep, h⟩ := bind_eq_error_iff.mp h
      · obtain harg | ⟨a, harg, hadd⟩ := bind_eq_error_iff.mp hstep
        · cases argumentOfParameter_ne_repeated harg
        · rw [addArguments_singleton] at hadd
          split at hadd
          case isFalse => cases hadd
          case isTrue hmem =>
            have hname := (ofParameter_of_eq_ok harg).name
            cases hadd
            exact ⟨[], p, chosen, rfl, hname.symm, .inl hmem⟩
      · obtain ⟨a, harg, hadd⟩ := bind_eq_ok_iff.mp hstep
        have hname := (ofParameter_of_eq_ok harg).name
        rw [addArguments_singleton] at hadd
        split at hadd
        case isTrue => cases hadd
        case isFalse =>
          cases hadd
          obtain ⟨before, q, after, rfl, hq, hmem⟩ := ih h
          use p :: before, q, after, rfl, hq
          rw [namesOf, List.map_append, List.mem_append, List.map_singleton,
            List.mem_singleton] at hmem
          obtain (hmem | rfl) | ⟨q', hq', hname'⟩ := hmem
          · exact .inl hmem
          · exact .inr ⟨p, List.mem_cons_self, hname.symm⟩
          · exact .inr ⟨q', List.mem_cons_of_mem p hq', hname'⟩

/-- Arguments for a body never repeat the name of a parameter: they collide with it. -/
theorem addArguments_bodyCollision_ne {more : List Argument} :
  addArguments .bodyCollision args more ≠ .error (.repeated name)
  := by
  induction more generalizing args with
  | nil => rintro ⟨⟩
  | cons a more ih =>
      rw [addArguments]
      split
      · rintro ⟨⟩
      · apply ih

/-- A name is repeated only by parameters of different places, of which each is the last one of
its place and name. -/
theorem exists_of_repeated (h : argumentsOfOperation r common op = .error (.repeated name)) :
  ∃ commons owns p q,
    common.mapM (r.resolve Parameter.decode?) = .ok commons ∧
    op.parameters.mapM (r.resolve Parameter.decode?) = .ok owns ∧
    Prevails (commons ++ owns) p ∧ Prevails (commons ++ owns) q ∧
    p.name = name ∧ q.name = name ∧ p.place ≠ q.place
  := by
  rw [argumentsOfOperation, joinParameters_eq] at h
  obtain hjoin | ⟨chosen, hjoin, h⟩ := bind_eq_error_iff.mp h
  · cases ofRef_ne_repeated hjoin
  obtain ⟨commons, hcommons, hjoin⟩ := bind_eq_ok_iff.mp (mapError_eq_ok_iff.mp hjoin)
  obtain ⟨owns, howns, hjoin⟩ := bind_eq_ok_iff.mp hjoin
  cases hjoin
  obtain hfold | ⟨args, -, h⟩ := bind_eq_error_iff.mp h
  · obtain ⟨before, p, after, hsplit, hp, hnone | ⟨q, hq, hname⟩⟩ := exists_of_foldlM_repeated hfold
    · cases hnone
    · have hnodup := nodup_joined (commons ++ owns)
      have hmem := mem_joined_iff (q := p) (commons ++ owns)
      have hmem' := mem_joined_iff (q := q) (commons ++ owns)
      rw [hsplit] at hnodup hmem hmem'
      use commons, owns, p, q, hcommons, howns, hmem.mp (by simp), hmem'.mp (by simp [hq]), hp,
        hname
      -- if their places were the same, one would have taken the place of the other
      intro hplace
      rw [List.map_append, List.map_cons, List.nodup_append] at hnodup
      apply hnodup.2.2 q.key (List.mem_map_of_mem hq) p.key List.mem_cons_self
      rw [Parameter.key, Parameter.key, hplace, hp, hname]
  · cases hbody : op.requestBody with
    | none =>
        rw [hbody] at h
        cases h
    | some x =>
        rw [hbody] at h
        obtain h | ⟨body, -, h⟩ := bind_eq_error_iff.mp h
        · cases ofRef_ne_repeated h
        obtain h | ⟨fromBody, -, h⟩ := bind_eq_error_iff.mp h
        · cases ofRef_ne_repeated h
        · cases addArguments_bodyCollision_ne h

end

/-- The arguments of an operation, or why it has none, are the same if of all parameters of one
place and name only the last one is there, in the place of the first.  This is one of the
operation if it has any, and no parameter is refused for the one in whose place it is put.  A
document is refused for an operation with parameters of one name only if the last parameters of
two different places have it. -/
theorem last_parameters_count (s : Settings) (destination : Destination) (bytes : List UInt8) :
  (∀ (r : RefScope) (common : List (RefOr Parameter)) (op : Operation),
    argumentsOfOperation r common op = do
      let commons ← ArgumentError.ofRef (common.mapM (r.resolve Parameter.decode?))
      let owns ← ArgumentError.ofRef (op.parameters.mapM (r.resolve Parameter.decode?))
      argumentsOfOperation r []
        { op with parameters := (joined (commons ++ owns)).map RefOr.inline }) ∧
  (∀ commons owns : List Parameter,
    (joined (commons ++ owns)).map Parameter.key =
      ((commons ++ owns).map Parameter.key).eraseDups ∧
    (∀ p, p ∈ joined (commons ++ owns) ↔ Prevails (commons ++ owns) p) ∧
    ∀ p, Prevails (commons ++ owns) p → (∃ o ∈ owns, o.key = p.key) → p ∈ owns) ∧
  ∀ label name,
    convert s destination bytes = .error (.operation label (.repeated name)) →
    ∃ d path item method op commons owns p q,
      readDocument bytes = .ok d ∧ Selected s d path item method op ∧
      label = operationLabel method path ∧
      item.parameters.mapM (RefScope.resolve ⟨d.root⟩ Parameter.decode?) = .ok commons ∧
      op.parameters.mapM (RefScope.resolve ⟨d.root⟩ Parameter.decode?) = .ok owns ∧
      Prevails (commons ++ owns) p ∧ Prevails (commons ++ owns) q ∧
      p.name = name ∧ q.name = name ∧ p.place ≠ q.place
  := by
  constructor
  · apply argumentsOfOperation_eq
  constructor
  · intro commons owns
    use map_key_joined _, fun p => mem_joined_iff _
    intro p
    apply Prevails.mem_owns
  · intro label name h
    obtain hread | ⟨d, hd, hrejection⟩ := convert_eq_error_iff.mp h
    · cases ofPath_of_readDocument hread
    · obtain ⟨path, item, method, op, hselected, hlabel, herror⟩ := hrejection.exists_selected
      obtain ⟨commons, owns, p, q, hfacts⟩ := exists_of_repeated herror
      exact ⟨d, path, item, method, op, commons, owns, p, q, hd, hselected, hlabel, hfacts⟩

/-- The text of a document with one operation, of which the parameters are given. -/
def textWithParameters (parameters : String) : List Char :=
  ("\x7bopenapi: '3.', info: \x7btitle: T, version: v\x7d, " ++
    "paths: \x7b/a: \x7bget: \x7bresponses: \x7b\x7d, parameters: [" ++ parameters ++
    "]\x7d\x7d\x7d\x7d").toList

/-- The text of a document with a parameter that is there twice. -/
def twiceText : List Char :=
  textWithParameters ("\x7bname: q, in: query, schema: \x7btype: string\x7d\x7d, " ++
    "\x7bname: q, in: query, schema: \x7btype: integer\x7d\x7d")

/-- The text of a document with parameters of one name and different places. -/
def acrossText : List Char :=
  textWithParameters ("\x7bname: q, in: query, schema: \x7b\x7d\x7d, " ++
    "\x7bname: q, in: header, schema: \x7b\x7d\x7d")

/-- The place and name of a parameter that is not there by reference. -/
def keyOf? : RefOr Parameter → Option (ParameterPlace × String)
  | .inline p => some p.key
  | .ref _ => none

/-- A parameter with a place and a name is there itself. -/
theorem exists_of_keyOf? {x : RefOr Parameter} {key : ParameterPlace × String}
    (h : keyOf? x = some key) :
  ∃ p, x = .inline p ∧ p.key = key
  := by
  cases x with
  | inline p => exact ⟨p, rfl, Option.some.inj h⟩
  | ref target => cases h

/-- The parameters of the operation on a path, and the arguments of tools. -/
def twiceFacts (d : Document) (tools : List Tool) :
    Option (List (Option (ParameterPlace × String))) × List (List (String × String)) :=
  ((getOn? d "/a").map fun o => o.2.parameters.map keyOf?,
    tools.map fun t => t.args.map fun a => (a.name, a.schema.compact))

set_option maxRecDepth 10000 in
/-- The parameter is there twice, and the tool has one argument. -/
theorem facts_of_twiceText :
  (readText twiceText >>= fun d =>
    (convertDocument .standard .byConvention d "").map fun c => twiceFacts d c.tools) =
    .ok (some [some (.query, "q"), some (.query, "q")],
      [[("q", "\x7b\"type\":\"integer\"\x7d")]])
  := by
  decide +kernel

/-- A document is converted although an operation has two parameters of one place and name. -/
theorem converts_twiceText :
  ∃ d c item op p q, readDocument (Text.utf8 (String.ofList twiceText)) = .ok d ∧
    Selected .standard d "/a" item .get op ∧ op.parameters = [.inline p, .inline q] ∧
    p.key = (.query, "q") ∧ q.key = (.query, "q") ∧
    convert .standard .byConvention (Text.utf8 (String.ofList twiceText)) = .ok c ∧
    (c.tools.map fun t => t.args.map fun a => (a.name, a.schema.compact)) =
      [[("q", "\x7b\"type\":\"integer\"\x7d")]]
  := by
  have hfirst : twiceText.head? = some '\x7b' := by decide +kernel
  obtain ⟨d, c, hd, hc, hfacts⟩ := exists_of_readText hfirst (by decide) facts_of_twiceText
  obtain ⟨hkeys, hargs⟩ := Prod.mk.inj hfacts
  obtain ⟨⟨item, op⟩, hop, hkeys⟩ := Option.map_eq_some_iff.mp hkeys
  obtain ⟨hpath, hget⟩ := of_getOn? hop
  obtain ⟨x, xs, hparameters, hx, hxs⟩ := List.map_eq_cons_iff.mp hkeys
  obtain ⟨y, ys, rfl, hy, hnil⟩ := List.map_eq_cons_iff.mp hxs
  obtain rfl := List.map_eq_nil_iff.mp hnil
  obtain ⟨p, rfl, hp⟩ := exists_of_keyOf? hx
  obtain ⟨q, rfl, hq⟩ := exists_of_keyOf? hy
  exact ⟨d, c, item, op, p, q, hd, ⟨⟨.inline item, hpath, rfl⟩, hget, rfl⟩, hparameters, hp, hq, hc,
    hargs⟩

set_option maxRecDepth 10000 in
/-- A document is refused for parameters of one name, since their places differ. -/
theorem rejects_acrossText :
  ∃ d path item method op, ∃ p q : Parameter,
    convert .standard .byConvention (Text.utf8 (String.ofList acrossText)) =
      .error (.operation "GET /a" (.repeated "q")) ∧
    readDocument (Text.utf8 (String.ofList acrossText)) = .ok d ∧
    Selected .standard d path item method op ∧ "GET /a" = operationLabel method path ∧
    p.name = "q" ∧ q.name = "q" ∧ p.place ≠ q.place
  := by
  have hfirst : acrossText.head? = some '\x7b' := by decide +kernel
  have htext : (readText acrossText >>= fun d =>
      (convertDocument .standard .byConvention d "").map fun c => c.tools.length) =
      .error (.operation "GET /a" (.repeated "q")) := by
    decide +kernel
  have hconvert := convert_eq_error_of_readText hfirst (by decide) htext
  obtain ⟨-, -, hall⟩ :=
    last_parameters_count .standard .byConvention (Text.utf8 (String.ofList acrossText))
  obtain ⟨d, path, item, method, op, _, _, p, q, hd, hselected, hlabel, -, -, -, -, hp, hq, hne⟩ :=
    hall _ _ hconvert
  exact ⟨d, path, item, method, op, p, q, hconvert, hd, hselected, hlabel, hp, hq, hne⟩

end ApiIntake
