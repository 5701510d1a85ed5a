import ApiIntake.Conversion
import ApiIntake.Proofs.Outcome
import Mathlib.Data.List.Basic
import Mathlib.Data.List.Pairwise
import Mathlib.Tactic.Use

/-!
# Paths of a document

A document has each of its paths once (`nodup_paths`): data in which a mapping has a key twice
is refused before it is read as a document, and the paths are the keys of one mapping.
-/

namespace ApiIntake

open ApiIntake.OpenApi
open ApiIntake.Yaml (Value Scalar)

/-! ### Checked data -/

namespace Yaml.Value

variable {entries : List (Value × Value)} {v w : Value}

/-- Keys differ if no two of them are the same. -/
theorem keysDiffer_iff :
  keysDiffer entries = true ↔ entries.Pairwise fun a b => same a.1 b.1 = false
  := by
  induction entries with
  | nil => simp [keysDiffer]
  | cons e rest ih => simp [keysDiffer, ih]

/-- Keys that are texts are the same if the texts are equal. -/
theorem same_str {a b s t : String} :
  same (.scalar (.str a) s) (.scalar (.str b) t) = decide (a = b)
  := by
  simp [same]

/-- The values of a mapping that passes the check pass it. -/
theorem check_of_mem {e : Value × Value} (h : checkEntries entries = .ok ()) (he : e ∈ entries) :
  check e.2 = .ok ()
  := by
  induction entries with
  | nil => cases he
  | cons a rest ih =>
      rw [checkEntries] at h
      cases hk : check a.1 with
      | error f =>
          rw [hk] at h
          cases h
      | ok _ =>
          rw [hk] at h
          cases hv : check a.2 with
          | error f =>
              rw [hv] at h
              cases h
          | ok _ =>
              rw [hv] at h
              obtain rfl | he := List.mem_cons.mp he
              · apply hv
              · apply ih h he

/-- The keys of a mapping that passes the check differ, and its values pass the check. -/
theorem check_map (h : check (.map entries) = .ok ()) :
  keysDiffer entries = true ∧ ∀ e ∈ entries, check e.2 = .ok ()
  := by
  rw [check] at h
  split at h
  · rename_i hk
    use hk
    intro e he
    apply check_of_mem h he
  · cases h

/-- A value passes the check without its tags if it does with them. -/
theorem check_untagged (v : Value) :
  check v.untagged = check v
  := by
  match v with
  | .tagged tag v => rw [untagged, check, check_untagged v]
  | .scalar _ _ | .list _ | .map _ => rfl

/-- What a key leads to in a value that passes the check passes it. -/
theorem check_get? {key : String} (h : check v = .ok ()) (hw : v.get? key = some w) :
  check w = .ok ()
  := by
  cases v with
  | map entries =>
      obtain ⟨e, he, rfl⟩ := Option.map_eq_some_iff.mp hw
      apply (check_map h).2 e (List.mem_of_find?_eq_some he)
  | scalar s text => cases hw
  | list items => cases hw
  | tagged tag v => cases hw

/-- The keys of the entries of a value that passes the check differ. -/
theorem keysDiffer_entriesOf (h : check v = .ok ()) :
  keysDiffer (entriesOf v) = true
  := by
  cases v with
  | map entries => apply (check_map h).1
  | scalar s text => rfl
  | list items => rfl
  | tagged tag v => rfl

end Yaml.Value

/-! ### Documents -/

/-- The path and the path item of an entry, if its key is a path. -/
def pathEntry? (e : Value × Value) : Option (String × RefOr PathItem) :=
  match e with
  | (.scalar (.str path) _, v) =>
    if path.startsWith "/" then some (path, RefOr.ofValue PathItem.ofValue v) else none
  | _ => none

/-- The key of a path is its text. -/
theorem key_of_pathEntry? {e : Value × Value} {p : String × RefOr PathItem}
    (h : pathEntry? e = some p) :
  ∃ text, e.1 = .scalar (.str p.1) text
  := by
  match e with
  | (.scalar (.str path) text, v) =>
      obtain ⟨-, h⟩ := Option.ite_none_right_eq_some.mp h
      cases h
      use text

/-- No path occurs twice where keys differ. -/
theorem nodup_pathEntries {entries : List (Value × Value)}
    (h : Value.keysDiffer entries = true) :
  ((entries.filterMap pathEntry?).map (·.1)).Nodup
  := by
  rw [List.Nodup, List.pairwise_map, List.pairwise_filterMap]
  apply (Value.keysDiffer_iff.mp h).imp
  intro a b hab p hp q hq hpq
  obtain ⟨s, ha⟩ := key_of_pathEntry? hp
  obtain ⟨t, hb⟩ := key_of_pathEntry? hq
  rw [ha, hb, Value.same_str, hpq] at hab
  simp at hab

/-- The paths of a document are keys of the mapping under `paths`. -/
theorem paths_of_decode? {reading : Reading} {v : Value} {d : Document}
    (h : Document.decode? reading v = some d) :
  d.paths =
    ((((v.untagged.get? "paths").map Value.untagged).map entriesOf).getD []).filterMap pathEntry?
  := by
  rw [Document.decode?] at h
  obtain ⟨form, -, h⟩ := Option.bind_eq_some_iff.mp h
  obtain ⟨info, -, h⟩ := Option.bind_eq_some_iff.mp h
  cases h
  rfl

/-- A document that is read comes from data that passes the check. -/
theorem exists_of_readDocument {bytes : List UInt8} {d : Document}
    (h : readDocument bytes = .ok d) :
  ∃ root, Value.check root = .ok () ∧ Document.decode? .settled root = some d
  := by
  rw [readDocument] at h
  split at h
  · cases h
  · dsimp only at h
    split at h
    · obtain ⟨text, -, h⟩ := bind_eq_ok_iff.mp h
      split at h
      · rename_i v _
        obtain ⟨root, hr, h⟩ := bind_eq_ok_iff.mp h
        obtain ⟨_, hc, rfl⟩ := map_eq_ok_iff.mp hr
        use v, mapError_eq_ok_iff.mp hc
        split at h
        · obtain ⟨_, -, h⟩ := bind_eq_ok_iff.mp h
          split at h
          · rename_i hd
            cases h
            apply hd
          · cases h
        · cases h
      · cases h
    · cases h

/-- No path occurs twice in a document. -/
theorem nodup_paths {bytes : List UInt8} {d : Document} (h : readDocument bytes = .ok d) :
  (d.paths.map (·.1)).Nodup
  := by
  obtain ⟨root, hc, hd⟩ := exists_of_readDocument h
  rw [paths_of_decode? hd]
  apply nodup_pathEntries
  cases hp : root.untagged.get? "paths" with
  | none => rfl
  | some v =>
      apply Value.keysDiffer_entriesOf
      rw [Value.check_untagged]
      apply Value.check_get? _ hp
      rw [Value.check_untagged]
      apply hc

end ApiIntake
