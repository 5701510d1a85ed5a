import ApiIntake.Conversion
import ApiIntake.Proofs.Tool.Reach
import Mathlib.Data.List.Dedup
import Mathlib.Data.List.Perm.Subperm

/-!
# How a chain of references ends

A chain of references is followed turn by turn (`RefScope.Turns`).  It ends in no more turns
than there are different references to follow, and one more (`RefScope.turns_chase`).  Where it
ends can be told from the chain alone: at a thing of the expected kind, at a reference that has
been followed before, or at the first one that cannot be followed (`RefScope.resolve_exact`).
-/

namespace ApiIntake.OpenApi

open ApiIntake.Yaml (Value)

/-! ### Reading a thing or a reference -/

mutual

/-- A JSON value holds no tags and no numbers out of range. -/
theorem isPlain_ofJson (v : Json) :
  isPlain (Value.ofJson v) = true
  := by
  match v with
  | .arr items => apply plainItems_ofJsonItems
  | .obj members => apply plainEntries_ofJsonMembers
  | .null | .bool _ | .int _ | .float _ | .str _ => rfl

/-- The items of a JSON value hold no tags and no numbers out of range. -/
theorem plainItems_ofJsonItems (items : List Json) :
  plainItems (Value.ofJsonItems items) = true
  := by
  match items with
  | [] => rfl
  | v :: rest => rw [Value.ofJsonItems, plainItems, isPlain_ofJson, plainItems_ofJsonItems]; rfl

/-- The members of a JSON value hold no tags and no numbers out of range. -/
theorem plainEntries_ofJsonMembers (members : List (String × Json)) :
  plainEntries (Value.ofJsonMembers members) = true
  := by
  match members with
  | [] => rfl
  | (k, v) :: rest =>
      rw [Value.ofJsonMembers, plainEntries, isPlain_ofJson, plainEntries_ofJsonMembers]
      rfl

end

/-- The text under the key of a reference, of a value that is a reference. -/
def refText? (v : Json) : Option String := textOf? (entriesOf (Value.ofJson v)) "$ref"

/-- What a JSON value is read as where a thing of a kind or a reference to one may stand. -/
inductive Reads {α : Type} (kind : Kind) (read : Value → α) (v : Json) : RefOr α → Prop
  /-- A reference is one whatever stands beside it. -/
  | ref {target : String} (h : refText? v = some target) :
    Reads kind read v (.ref target)
  /-- What is no reference is a thing of the kind if it conforms to it. -/
  | inline {form : Json} (hr : refText? v = none)
    (h : (Shape.object kind).conform .strict (Value.ofJson v) = some form) :
    Reads kind read v (.inline (read (Value.ofJson v)))

section

variable {α : Type} {kind : Kind} {read : Value → α} {v : Json} {x : RefOr α}

/-- Where a reference may stand, any reference conforms. -/
theorem conform_refOr_of_ref {target : String} (h : refText? v = some target) :
  (Shape.refOr kind).conform .strict (Value.ofJson v) = some (.obj [("$ref", .str target)])
  := by
  cases v with
  | obj members =>
      rw [refText?, Value.ofJson, entriesOf] at h
      simp only [Value.ofJson, Shape.conform, plainEntries_ofJsonMembers, if_true, h]
  | null | bool _ | int _ | float _ | str _ | arr _ => cases h

/-- Where a reference may stand, what is none has to conform to the kind. -/
theorem conform_refOr_of_none (h : refText? v = none) :
  (Shape.refOr kind).conform .strict (Value.ofJson v) =
    (Shape.object kind).conform .strict (Value.ofJson v)
  := by
  cases v with
  | obj members =>
      rw [refText?, Value.ofJson, entriesOf] at h
      simp only [Value.ofJson, Shape.conform, plainEntries_ofJsonMembers, if_true, h]
  | null | bool _ | int _ | float _ | str _ | arr _ => rfl

/-- A value is decoded to what it is read as. -/
theorem decodeRef?_eq_some_iff :
  decodeRef? kind read (Value.ofJson v) = some x ↔ Reads kind read v x
  := by
  rw [decodeRef?, RefOr.ofValue, ← refText?]
  constructor
  · intro h
    cases ht : refText? v with
    | some target =>
        rw [conform_refOr_of_ref ht, ht] at h
        cases h
        apply Reads.ref ht
    | none =>
        rw [conform_refOr_of_none ht, ht] at h
        obtain ⟨form, hform, rfl⟩ := Option.map_eq_some_iff.mp h
        apply Reads.inline ht hform
  · intro h
    cases h with
    | ref ht => rw [conform_refOr_of_ref ht, ht]; rfl
    | inline ht hform => rw [conform_refOr_of_none ht, ht, hform]; rfl

end

namespace RefScope

/-! ### Following one reference -/

/-- A reference points to the value that its text selects, a number sign and a JSON pointer. -/
def Points (r : RefScope) (target : String) (v : Json) : Prop :=
  ∃ pointer, target.toList = '#' :: '/' :: pointer ∧ r.root.pointer? ('/' :: pointer) = some v

/-- Why a chain of references breaks off at one of them. -/
inductive Breaks {α : Type} (r : RefScope) (kind : Kind) (read : Value → α) (target : String) :
    RefFault → Prop
  /-- Its text does not begin with a number sign. -/
  | external (h : ∀ rest, target.toList ≠ '#' :: rest) :
    Breaks r kind read target .external
  /-- No slash follows the number sign. -/
  | notPointer {rest : List Char} (h : target.toList = '#' :: rest)
    (hp : ∀ pointer, rest ≠ '/' :: pointer) :
    Breaks r kind read target .notPointer
  /-- The pointer selects nothing. -/
  | dangling {pointer : List Char} (h : target.toList = '#' :: '/' :: pointer)
    (hv : r.root.pointer? ('/' :: pointer) = none) :
    Breaks r kind read target .dangling
  /-- What it points to is neither a reference nor a thing of the kind. -/
  | wrongKind {v : Json} (h : r.Points target v) (hx : ∀ x, ¬ Reads kind read v x) :
    Breaks r kind read target .wrongKind

section

variable {α : Type} {r : RefScope} {kind : Kind} {read : Value → α} {target : String} {v : Json}
  {x : RefOr α} {fault : RefFault} {e : RefError}

/-- What is found by a number sign and a pointer is what the pointer selects. -/
theorem lookup_of_toList {pointer : List Char} (h : target.toList = '#' :: '/' :: pointer) :
  r.lookup target =
    match r.root.pointer? ('/' :: pointer) with
    | some v => .ok v
    | none => .error ⟨.dangling, target⟩
  := by
  rw [lookup, h]
  rfl

/-- What a reference points to is found there. -/
theorem lookup_of_points (h : r.Points target v) :
  r.lookup target = .ok v
  := by
  obtain ⟨pointer, htext, hv⟩ := h
  rw [lookup_of_toList htext, hv]

/-- A reference is followed to what is read where it points to. -/
theorem follow_of_reads (h : r.Points target v) (hx : Reads kind read v x) :
  r.follow (decodeRef? kind read) target = .ok x
  := by
  simp only [follow, lookup_of_points h, bind, Except.bind, decodeRef?_eq_some_iff.mpr hx]

/-- A reference at which a chain breaks off is not followed. -/
theorem follow_of_breaks (h : r.Breaks kind read target fault) :
  r.follow (decodeRef? kind read) target = .error ⟨fault, target⟩
  := by
  cases h with
  | external h =>
      rw [follow, lookup]
      split
      · rename_i htext
        cases h _ htext
      · rename_i htext
        cases h _ htext
      · rfl
  | @notPointer rest h hp =>
      rw [follow, lookup]
      split
      · rename_i pointer htext
        rw [h] at htext
        cases hp pointer (List.cons.inj htext).2
      · rfl
      · rename_i htext
        cases htext _ h
  | dangling h hv =>
      rw [follow, lookup_of_toList h, hv]
      rfl
  | @wrongKind v h hx =>
      have hnone : decodeRef? kind read (Value.ofJson v) = none := by
        apply Option.eq_none_iff_forall_ne_some.mpr
        intro x h
        apply hx x (decodeRef?_eq_some_iff.mp h)
      simp only [follow, lookup_of_points h, bind, Except.bind, hnone]

/-- A reference points to what is read as a reference or a thing of the kind, or a chain breaks
off at it. -/
theorem reads_or_breaks (r : RefScope) (kind : Kind) (read : Value → α) (target : String) :
  (∃ v x, r.Points target v ∧ Reads kind read v x) ∨ ∃ fault, r.Breaks kind read target fault
  := by
  by_cases hsign : ∃ rest, target.toList = '#' :: rest
  · obtain ⟨rest, htext⟩ := hsign
    by_cases hslash : ∃ pointer, rest = '/' :: pointer
    · obtain ⟨pointer, rfl⟩ := hslash
      cases hv : r.root.pointer? ('/' :: pointer) with
      | none =>
          right
          use .dangling
          apply Breaks.dangling htext hv
      | some v =>
          have hpoints : r.Points target v := ⟨pointer, htext, hv⟩
          by_cases hx : ∃ x, Reads kind read v x
          · obtain ⟨x, hx⟩ := hx
            left
            use v, x
          · right
            use .wrongKind
            apply Breaks.wrongKind hpoints (not_exists.mp hx)
    · right
      use .notPointer
      apply Breaks.notPointer htext (not_exists.mp hslash)
  · right
    use .external
    apply Breaks.external (not_exists.mp hsign)

/-- A reference is followed to what is read where it points to, and to nothing else. -/
theorem follow_eq_ok_iff :
  r.follow (decodeRef? kind read) target = .ok x ↔ ∃ v, r.Points target v ∧ Reads kind read v x
  := by
  constructor
  · intro h
    obtain ⟨v, y, hv, hy⟩ | ⟨fault, hb⟩ := r.reads_or_breaks kind read target
    · rw [follow_of_reads hv hy] at h
      cases h
      use v
    · rw [follow_of_breaks hb] at h
      cases h
  · rintro ⟨v, hv, hx⟩
    apply follow_of_reads hv hx

/-- A reference is not followed if a chain breaks off at it, and only then. -/
theorem follow_eq_error_iff :
  r.follow (decodeRef? kind read) target = .error e ↔
    e.target = target ∧ r.Breaks kind read target e.fault
  := by
  constructor
  · intro h
    obtain ⟨v, y, hv, hy⟩ | ⟨fault, hb⟩ := r.reads_or_breaks kind read target
    · rw [follow_of_reads hv hy] at h
      cases h
    · rw [follow_of_breaks hb] at h
      cases h
      use rfl
  · rintro ⟨rfl, hb⟩
    apply follow_of_breaks hb

end

/-! ### Following a chain -/

/-- A chain of references goes from a thing or a reference to another one by way of the given
references. -/
inductive Passes {α : Type} (r : RefScope) (decode? : Value → Option (RefOr α)) :
    RefOr α → List String → RefOr α → Prop
  /-- It has come to where it goes. -/
  | here {x : RefOr α} :
    Passes r decode? x [] x
  /-- It follows a reference and goes on. -/
  | through {target : String} {next x : RefOr α} {targets : List String}
    (h : r.follow decode? target = .ok next) (rest : Passes r decode? next targets x) :
    Passes r decode? (.ref target) (target :: targets) x

/-- What a chain of references comes to if it ends where some have been followed. -/
inductive Stops {α : Type} (r : RefScope) (decode? : Value → Option (RefOr α))
    (followed : List String) : RefOr α → Except RefError α → Prop
  /-- It ends at a thing. -/
  | found {a : α} :
    Stops r decode? followed (.inline a) (.ok a)
  /-- It has come back to a reference. -/
  | again {target : String} (h : target ∈ followed) :
    Stops r decode? followed (.ref target) (.error ⟨.cyclic, target⟩)
  /-- It has come to a reference that cannot be followed. -/
  | broken {target : String} {e : RefError} (h : target ∉ followed)
    (hf : r.follow decode? target = .error e) :
    Stops r decode? followed (.ref target) (.error e)

/-- What following a chain of references comes to behind some that have been followed, in so many
turns. -/
inductive Turns {α : Type} (r : RefScope) (decode? : Value → Option (RefOr α)) :
    List String → RefOr α → Nat → Except RefError α → Prop
  /-- The last turn finds the end of the chain. -/
  | last {followed : List String} {x : RefOr α} {y : Except RefError α}
    (h : Stops r decode? followed x y) :
    Turns r decode? followed x 1 y
  /-- Any other turn follows a reference that has not been followed. -/
  | next {followed : List String} {target : String} {next : RefOr α} {n : Nat}
    {y : Except RefError α} (h : target ∉ followed) (hf : r.follow decode? target = .ok next)
    (rest : Turns r decode? (target :: followed) next n y) :
    Turns r decode? followed (.ref target) (n + 1) y

section

variable {α : Type} {r : RefScope} {decode? : Value → Option (RefOr α)} {x y z : RefOr α}
  {target t : String} {targets targets' followed followed' : List String} {m n : Nat}
  {o o' : Except RefError α}

/-- One chain goes on where another has come to. -/
theorem Passes.trans (h : r.Passes decode? x targets y) (h' : r.Passes decode? y targets' z) :
  r.Passes decode? x (targets ++ targets') z
  := by
  induction h with
  | here => apply h'
  | through hf rest ih => apply Passes.through hf (ih h')

/-- A chain comes to every reference that it follows. -/
theorem Passes.exists_of_mem (h : r.Passes decode? x targets y) (ht : t ∈ targets) :
  ∃ before, r.Passes decode? x before (.ref t)
  := by
  induction h with
  | here => cases ht
  | @through target _ _ _ hf rest ih =>
      obtain rfl | ht := List.mem_cons.mp ht
      · use [], Passes.here
      · obtain ⟨before, hb⟩ := ih ht
        use target :: before, Passes.through hf hb

/-- A chain does not come back to a reference if it comes to where it cannot go on. -/
theorem Passes.notMem (h : r.Passes decode? x targets y)
    (halts : ∀ l z, r.Passes decode? y l z → l = []) (h' : r.Passes decode? x targets' (.ref t)) :
  t ∉ targets'
  := by
  induction h generalizing targets' t with
  | here =>
      rw [halts _ _ h']
      apply List.not_mem_nil
  | @through target next _ _ hf rest ih =>
      cases h' with
      | here => apply List.not_mem_nil
      | through hf' rest' =>
          rw [hf] at hf'
          cases hf'
          intro ht
          obtain rfl | ht := List.mem_cons.mp ht
          · -- the chain would go round from what follows the reference, too
            have hround := rest'.trans (Passes.through hf rest')
            apply ih halts hround
            apply List.mem_append_right _ List.mem_cons_self
          · apply ih halts rest' ht

/-- A chain follows no reference twice if it comes to where it cannot go on. -/
theorem Passes.nodup (h : r.Passes decode? x targets y)
    (halts : ∀ l z, r.Passes decode? y l z → l = []) :
  targets.Nodup
  := by
  induction h with
  | here => apply List.nodup_nil
  | @through target _ _ _ hf rest ih =>
      apply List.nodup_cons.mpr
      constructor
      · intro ht
        obtain ⟨before, hb⟩ := rest.exists_of_mem ht
        apply (Passes.through hf rest).notMem halts (Passes.through hf hb) List.mem_cons_self
      · apply ih halts

/-- A chain does not go on behind a thing. -/
theorem Passes.of_inline {a : α} (h : r.Passes decode? (.inline a) targets x) :
  targets = []
  := by
  cases h
  rfl

/-- A chain does not go on behind a reference that cannot be followed. -/
theorem Passes.of_error {e : RefError} (hf : r.follow decode? target = .error e)
    (h : r.Passes decode? (.ref target) targets x) :
  targets = []
  := by
  cases h with
  | here => rfl
  | through hf' _ =>
      rw [hf] at hf'
      cases hf'

/-- It does not matter in which order references have been followed. -/
theorem Stops.congr (h : r.Stops decode? followed x o) (hm : ∀ t, t ∈ followed ↔ t ∈ followed') :
  r.Stops decode? followed' x o
  := by
  cases h with
  | found => apply Stops.found
  | again h => apply Stops.again ((hm _).mp h)
  | broken h hf => apply Stops.broken (mt (hm _).mpr h) hf

/-- Following a chain comes to what the chain ends with. -/
theorem Turns.exists_passes (h : r.Turns decode? followed x n o) :
  ∃ targets y, r.Passes decode? x targets y ∧ targets.Nodup ∧ (∀ t ∈ targets, t ∉ followed) ∧
    r.Stops decode? (targets ++ followed) y o
  := by
  induction h with
  | @last _ x _ h => exact ⟨[], x, .here, List.nodup_nil, List.forall_mem_nil _, h⟩
  | @next followed target _ _ _ hn hf _ ih =>
      obtain ⟨targets, y, hp, hnodup, hfresh, hstop⟩ := ih
      use target :: targets, y, Passes.through hf hp
      constructor
      · apply List.nodup_cons.mpr
        constructor
        · intro ht
          apply hfresh target ht List.mem_cons_self
        · apply hnodup
      constructor
      · rw [List.forall_mem_cons]
        use hn
        intro t ht hm
        apply hfresh t ht (List.mem_cons_of_mem target hm)
      · apply hstop.congr
        intro t
        simp [or_left_comm]

/-- What a chain ends with, which does not follow a reference twice, is what following it comes
to. -/
theorem Turns.of_passes (h : r.Passes decode? x targets y) (hnodup : targets.Nodup)
    (hfresh : ∀ t ∈ targets, t ∉ followed) (hstop : r.Stops decode? (targets ++ followed) y o) :
  ∃ n, r.Turns decode? followed x n o
  := by
  induction h generalizing followed with
  | here => use 1, Turns.last hstop
  | @through target _ _ targets hf _ ih =>
      obtain ⟨hn, hfresh⟩ := List.forall_mem_cons.mp hfresh
      obtain ⟨ht, hnodup⟩ := List.nodup_cons.mp hnodup
      have hmore : ∀ t ∈ targets, t ∉ target :: followed := by
        intro t hmem hm
        obtain rfl | hm := List.mem_cons.mp hm
        · apply ht hmem
        · apply hfresh t hmem hm
      obtain ⟨n, hturns⟩ := ih hnodup hmore (hstop.congr (by simp [or_left_comm]))
      use n + 1, Turns.next hn hf hturns

/-- A chain ends in one way only. -/
theorem Stops.unique (h : r.Stops decode? followed x o) (h' : r.Stops decode? followed x o') :
  o = o'
  := by
  cases h with
  | found =>
      cases h'
      rfl
  | again h =>
      cases h' with
      | again => rfl
      | broken h' => cases h' h
  | broken h hf =>
      cases h' with
      | again h' => cases h h'
      | broken _ hf' =>
          rw [hf] at hf'
          cases hf'
          rfl

/-- Following a chain comes to one thing only. -/
theorem Turns.unique (h : r.Turns decode? followed x m o) (h' : r.Turns decode? followed x n o') :
  o = o'
  := by
  induction h generalizing n with
  | last h =>
      cases h' with
      | last h' => apply h.unique h'
      | next hn hf =>
          cases h with
          | again h => cases hn h
          | broken _ hf' =>
              rw [hf] at hf'
              cases hf'
  | next hn hf _ ih =>
      cases h' with
      | last h' =>
          cases h' with
          | again h' => cases hn h'
          | broken _ hf' =>
              rw [hf] at hf'
              cases hf'
      | next _ hf' rest' =>
          rw [hf] at hf'
          cases hf'
          apply ih rest'

end

/-! ### The references of a document -/

/-- The reference that a thing or a reference is. -/
def targetsOf {α : Type} : RefOr α → List String
  | .ref target => [target]
  | .inline _ => []

/-- The different references that a document writes and a chain begins with. -/
def references {α : Type} (r : RefScope) (x : RefOr α) : List String :=
  (targetsOf x ++ refTexts r.root).dedup

section

variable {α : Type} {r : RefScope} {kind : Kind} {read : Value → α} {target : String} {v : Json}
  {x : RefOr α} {o : Except RefError α} {links : Nat} {followed pool : List String}

/-- What is read as a reference writes it. -/
theorem targetsOf_reads (h : Reads kind read v x) :
  targetsOf x ⊆ refTexts v
  := by
  cases h with
  | inline => apply List.nil_subset
  | ref h =>
      cases v with
      | obj members => apply List.cons_subset.mpr ⟨mem_refTextsMembers h, List.nil_subset _⟩
      | null | bool _ | int _ | float _ | str _ | arr _ => cases h

/-- A reference is followed to references that the document writes. -/
theorem targetsOf_follow (h : r.follow (decodeRef? kind read) target = .ok x) :
  targetsOf x ⊆ refTexts r.root
  := by
  obtain ⟨v, ⟨pointer, -, hv⟩, hx⟩ := follow_eq_ok_iff.mp h
  apply List.Subset.trans (targetsOf_reads hx) (refTexts_pointer? hv)

/-- A chain is followed to its end, if it may have as many more links as there are references
that have not been followed. -/
theorem turns_chase (hroot : refTexts r.root ⊆ pool) (hx : targetsOf x ⊆ pool)
    (hnodup : followed.Nodup) (hsub : followed ⊆ pool)
    (hlinks : pool.length ≤ links + followed.length) :
  ∃ n, n + followed.length ≤ pool.length + 1 ∧
    r.Turns (decodeRef? kind read) followed x n
      (r.chase (decodeRef? kind read) links followed x)
  := by
  have hle := (List.subperm_of_subset hnodup hsub).length_le
  induction links generalizing followed x with
  | zero =>
      cases x with
      | inline a => exact ⟨1, by omega, .last .found⟩
      | ref target =>
          -- all references have been followed, and so has this one
          have hmem : target ∈ followed := by
            by_contra hn
            have hmore := (List.subperm_of_subset (List.nodup_cons.mpr ⟨hn, hnodup⟩)
              (List.cons_subset.mpr ⟨hx List.mem_cons_self, hsub⟩)).length_le
            rw [List.length_cons] at hmore
            omega
          exact ⟨1, by omega, .last (.again hmem)⟩
  | succ links ih =>
      cases x with
      | inline a => exact ⟨1, by omega, .last .found⟩
      | ref target =>
          rw [chase]
          by_cases hmem : target ∈ followed
          · rw [if_pos (List.contains_iff_mem.mpr hmem)]
            exact ⟨1, by omega, .last (.again hmem)⟩
          rw [if_neg (mt List.contains_iff_mem.mp hmem)]
          cases hf : r.follow (decodeRef? kind read) target with
          | error e => exact ⟨1, by omega, .last (.broken hmem hf)⟩
          | ok next =>
              have hnodup' := List.nodup_cons.mpr ⟨hmem, hnodup⟩
              have hsub' := List.cons_subset.mpr ⟨hx List.mem_cons_self, hsub⟩
              have hnext := List.Subset.trans (targetsOf_follow hf) hroot
              have hle' := (List.subperm_of_subset hnodup' hsub').length_le
              obtain ⟨n, hn, hturns⟩ := ih hnext hnodup' hsub'
                (by rw [List.length_cons]; omega) hle'
              rw [List.length_cons] at hn
              exact ⟨n + 1, by omega, .next hmem hf hturns⟩

/-- What is resolved is followed to the end of its chain, in one more turn than there are
references at most. -/
theorem turns_resolve (r : RefScope) (kind : Kind) (read : Value → α) (x : RefOr α) :
  ∃ n, n ≤ (r.references x).length + 1 ∧
    r.Turns (decodeRef? kind read) [] x n (r.resolve (decodeRef? kind read) x)
  := by
  have hone : (targetsOf x).length ≤ 1 := by
    cases x with
    | ref target => apply Nat.le_refl
    | inline a => apply Nat.zero_le
  have hle := (List.dedup_sublist (targetsOf x ++ refTexts r.root)).length_le
  rw [List.length_append] at hle
  have hlinks : (r.references x).length ≤ r.linkBound + ([] : List String).length := by
    rw [references, linkBound, List.length_nil]
    omega
  have hroot : refTexts r.root ⊆ r.references x := by
    intro t ht
    apply List.mem_dedup.mpr (List.mem_append_right _ ht)
  have hx : targetsOf x ⊆ r.references x := by
    intro t ht
    apply List.mem_dedup.mpr (List.mem_append_left _ ht)
  apply turns_chase hroot hx List.nodup_nil (List.nil_subset _) hlinks

/-- What is resolved is what the chain ends with that does not follow a reference twice. -/
theorem resolve_of_passes {y : RefOr α} {targets : List String}
    (h : r.Passes (decodeRef? kind read) x targets y) (hnodup : targets.Nodup)
    (hstop : r.Stops (decodeRef? kind read) targets y o) :
  r.resolve (decodeRef? kind read) x = o
  := by
  obtain ⟨m, -, hm⟩ := r.turns_resolve kind read x
  obtain ⟨n, hn⟩ := Turns.of_passes h hnodup (fun t _ => List.not_mem_nil) (hstop.congr (by simp))
  apply hm.unique hn

/-- Something is resolved to the end of a chain that does not follow a reference twice. -/
theorem exists_passes_resolve (r : RefScope) (kind : Kind) (read : Value → α) (x : RefOr α) :
  ∃ targets y, r.Passes (decodeRef? kind read) x targets y ∧ targets.Nodup ∧
    r.Stops (decodeRef? kind read) targets y (r.resolve (decodeRef? kind read) x)
  := by
  obtain ⟨n, -, hn⟩ := r.turns_resolve kind read x
  obtain ⟨targets, y, hp, hnodup, -, hstop⟩ := hn.exists_passes
  use targets, y, hp, hnodup
  rw [List.append_nil] at hstop
  apply hstop

/-- Something is resolved to what its chain reaches. -/
theorem resolve_eq_ok_iff {a : α} :
  r.resolve (decodeRef? kind read) x = .ok a ↔
    ∃ targets, r.Passes (decodeRef? kind read) x targets (.inline a)
  := by
  constructor
  · intro h
    obtain ⟨targets, y, hp, -, hstop⟩ := r.exists_passes_resolve kind read x
    rw [h] at hstop
    cases hstop with
    | found => use targets
  · rintro ⟨targets, hp⟩
    apply resolve_of_passes hp (hp.nodup fun _ _ => Passes.of_inline) .found

/-- A chain comes back first to the reference that the error names. -/
theorem resolve_eq_cyclic_iff :
  r.resolve (decodeRef? kind read) x = .error ⟨.cyclic, target⟩ ↔
    ∃ targets, r.Passes (decodeRef? kind read) x targets (.ref target) ∧ targets.Nodup ∧
      target ∈ targets
  := by
  constructor
  · intro h
    obtain ⟨targets, y, hp, hnodup, hstop⟩ := r.exists_passes_resolve kind read x
    rw [h] at hstop
    cases hstop with
    | again hmem => use targets
    | broken _ hf => cases (follow_eq_error_iff.mp hf).2
  · rintro ⟨targets, hp, hnodup, hmem⟩
    apply resolve_of_passes hp hnodup (.again hmem)

/-- A chain that comes back to any reference is an error for that. -/
theorem exists_resolve_eq_cyclic {targets : List String}
    (h : r.Passes (decodeRef? kind read) x targets (.ref target)) (hmem : target ∈ targets) :
  ∃ target, r.resolve (decodeRef? kind read) x = .error ⟨.cyclic, target⟩
  := by
  obtain ⟨targets', y, hp, -, hstop⟩ := r.exists_passes_resolve kind read x
  generalize r.resolve (decodeRef? kind read) x = o at hstop
  cases hstop with
  | found => cases hp.notMem (fun _ _ => Passes.of_inline) h hmem
  | @again target' _ => use target'
  | broken _ hf => cases hp.notMem (fun _ _ => Passes.of_error hf) h hmem

/-- Any other error is that of the reference at which the chain breaks off. -/
theorem resolve_eq_error_iff {fault : RefFault} :
  r.resolve (decodeRef? kind read) x = .error ⟨fault, target⟩ ∧ fault ≠ .cyclic ↔
    ∃ targets, r.Passes (decodeRef? kind read) x targets (.ref target) ∧
      r.Breaks kind read target fault
  := by
  constructor
  · rintro ⟨h, hfault⟩
    obtain ⟨targets, y, hp, -, hstop⟩ := r.exists_passes_resolve kind read x
    rw [h] at hstop
    cases hstop with
    | again => cases hfault rfl
    | broken _ hf =>
        obtain ⟨rfl, hbreaks⟩ := follow_eq_error_iff.mp hf
        use targets
  · rintro ⟨targets, hp, hbreaks⟩
    have hf := follow_of_breaks hbreaks
    have halts : ∀ l z, r.Passes (decodeRef? kind read) (.ref target) l z → l = [] :=
      fun _ _ => Passes.of_error hf
    constructor
    · apply resolve_of_passes hp (hp.nodup halts) (.broken (hp.notMem halts hp) hf)
    · rintro rfl
      cases hbreaks

/-- The first reference of a chain that cannot be followed, and why. -/
inductive Fails (r : RefScope) (kind : Kind) (read : Value → α) (x : RefOr α) : RefError → Prop
  /-- The chain breaks off there. -/
  | broken {targets : List String} {target : String} {fault : RefFault}
    (h : r.Passes (decodeRef? kind read) x targets (.ref target))
    (breaks : r.Breaks kind read target fault) :
    Fails r kind read x ⟨fault, target⟩
  /-- The chain comes back there. -/
  | cyclic {targets : List String} {target : String}
    (h : r.Passes (decodeRef? kind read) x targets (.ref target)) (nodup : targets.Nodup)
    (again : target ∈ targets) :
    Fails r kind read x ⟨.cyclic, target⟩

/-- Something is resolved unless a reference of its chain cannot be followed. -/
theorem resolve_eq_error_iff_fails {e : RefError} :
  r.resolve (decodeRef? kind read) x = .error e ↔ r.Fails kind read x e
  := by
  constructor
  · intro h
    obtain ⟨fault, target⟩ := e
    by_cases hfault : fault = .cyclic
    · subst hfault
      obtain ⟨targets, hp, hnodup, hmem⟩ := resolve_eq_cyclic_iff.mp h
      apply Fails.cyclic hp hnodup hmem
    · obtain ⟨targets, hp, hbreaks⟩ := resolve_eq_error_iff.mp ⟨h, hfault⟩
      apply Fails.broken hp hbreaks
  · intro h
    cases h with
    | broken hp hbreaks => apply (resolve_eq_error_iff.mpr ⟨_, hp, hbreaks⟩).1
    | cyclic hp hnodup hmem => apply resolve_eq_cyclic_iff.mpr ⟨_, hp, hnodup, hmem⟩

/-- A chain follows references that point into the document. -/
theorem Passes.points_of_mem {y : RefOr α} {targets : List String} {t : String}
    (h : r.Passes (decodeRef? kind read) x targets y) (ht : t ∈ targets) :
  ∃ v, r.Points t v
  := by
  induction h with
  | here => cases ht
  | through hf _ ih =>
      obtain rfl | ht := List.mem_cons.mp ht
      · obtain ⟨v, hv, -⟩ := follow_eq_ok_iff.mp hf
        use v
      · apply ih ht

/-- The first reference that cannot be followed points out of the document if it does not begin
with a number sign, and only then. -/
theorem Fails.external_iff {e : RefError} (h : r.Fails kind read x e) :
  e.fault = .external ↔ ∀ rest, e.target.toList ≠ '#' :: rest
  := by
  have hsign {fault : RefFault} {rest : List Char} {t : String} (hfault : fault ≠ .external)
      (ht : t.toList = '#' :: rest) : fault = .external ↔ ∀ rest, t.toList ≠ '#' :: rest := by
    constructor
    · intro h
      cases hfault h
    · intro h
      cases h _ ht
  cases h with
  | broken _ hbreaks =>
      cases hbreaks with
      | external h => simpa using h
      | notPointer h _ => apply hsign (by rintro ⟨⟩) h
      | dangling h _ => apply hsign (by rintro ⟨⟩) h
      | wrongKind h _ =>
          obtain ⟨pointer, h, -⟩ := h
          apply hsign (by rintro ⟨⟩) h
  | cyclic hp _ hmem =>
      obtain ⟨v, pointer, h, -⟩ := hp.points_of_mem hmem
      apply hsign (by rintro ⟨⟩) h

/-- A chain of references ends, in one more turn than there are different references at most.
Something is resolved to what its chain reaches.  It is an error for being cyclic exactly if the
chain comes back to a reference, and names the first one that is met again.  Any other error is
that of the first reference at which the chain breaks off.  A reference is followed to what is
read where it points to.  Only a reference that points out of the document is not supported, and
every other error is one of a reference. -/
theorem resolve_exact (r : RefScope) (kind : Kind) (read : Value → α) (x : RefOr α) :
  (∃ n, n ≤ (r.references x).length + 1 ∧
      r.Turns (decodeRef? kind read) [] x n (r.resolve (decodeRef? kind read) x)) ∧
    (∀ a, r.resolve (decodeRef? kind read) x = .ok a ↔
      ∃ targets, r.Passes (decodeRef? kind read) x targets (.inline a)) ∧
    ((∃ target, r.resolve (decodeRef? kind read) x = .error ⟨.cyclic, target⟩) ↔
      ∃ targets target, r.Passes (decodeRef? kind read) x targets (.ref target) ∧
        target ∈ targets) ∧
    (∀ target, r.resolve (decodeRef? kind read) x = .error ⟨.cyclic, target⟩ ↔
      ∃ targets, r.Passes (decodeRef? kind read) x targets (.ref target) ∧ targets.Nodup ∧
        target ∈ targets) ∧
    (∀ fault target,
      r.resolve (decodeRef? kind read) x = .error ⟨fault, target⟩ ∧ fault ≠ .cyclic ↔
        ∃ targets, r.Passes (decodeRef? kind read) x targets (.ref target) ∧
          r.Breaks kind read target fault) ∧
    (∀ target next, r.follow (decodeRef? kind read) target = .ok next ↔
      ∃ v, r.Points target v ∧ Reads kind read v next) ∧
    ∀ fault target, RefError.errorClass ⟨fault, target⟩ =
      if fault = .external then .unsupported else .reference
  := by
  use r.turns_resolve kind read x, fun a => resolve_eq_ok_iff
  constructor
  · constructor
    · rintro ⟨target, h⟩
      obtain ⟨targets, hp, -, hmem⟩ := resolve_eq_cyclic_iff.mp h
      use targets, target
    · rintro ⟨targets, target, hp, hmem⟩
      apply exists_resolve_eq_cyclic hp hmem
  use fun target => resolve_eq_cyclic_iff, fun fault target => resolve_eq_error_iff,
    fun target next => follow_eq_ok_iff
  intro fault target
  cases fault with
  | external | notPointer | dangling | wrongKind | cyclic => rfl

end

/-- A document with a parameter and references to it, to one another and to nothing. -/
def aliasScope : RefScope where
  root := .obj
    [("back", .obj [("$ref", .str "#/forth")]),
     ("forth", .obj [("$ref", .str "#/back")]),
     ("limit", .obj
      [("in", .str "query"), ("name", .str "limit"), ("schema", .obj [("type", .str "integer")])]),
     ("lost", .obj [("$ref", .str "#/none")]),
     ("other", .obj [("$ref", .str "#/limit")])]

example :
    (["#/other", "#/back", "#/lost", "#/limit/schema", "limit.yaml", "#limit"].map fun target =>
      (aliasScope.resolve Parameter.decode? (.ref target)).map (·.name)) =
    [.ok "limit", .error ⟨.cyclic, "#/back"⟩, .error ⟨.dangling, "#/none"⟩,
      .error ⟨.wrongKind, "#/limit/schema"⟩, .error ⟨.external, "limit.yaml"⟩,
      .error ⟨.notPointer, "#limit"⟩] := by
  decide +kernel

end RefScope

end ApiIntake.OpenApi
