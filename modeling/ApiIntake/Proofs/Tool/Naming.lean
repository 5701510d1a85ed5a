import ApiIntake.Tool.Name
import Mathlib.Data.List.Nodup
import Mathlib.Data.List.Perm.Subperm
import Mathlib.Data.Nat.Digits.Defs
import Mathlib.Tactic.Use

/-!
# Names one behind the other

A base that is not taken is a name itself.  Else the name has the least number behind the base
that makes it new (`Gets`), and such a number is found in no more attempts than there are names
taken.  Names that bases get one behind the other are all different (`nodup_freeNames`), and
what a base gets does not hang on the bases behind it.
-/

namespace ApiIntake

/-- The name that a base gets where names are taken. -/
inductive Gets (taken : List String) (base : String) : String → Prop
  /-- A base that is not taken is the name. -/
  | itself (free : base ∉ taken) :
    Gets taken base base
  /-- Behind a base that is taken comes the least number that makes a name that is not. -/
  | counted {k : Nat} (used : base ∈ taken) (pos : 1 ≤ k) (le : k ≤ taken.length)
    (free : numbered base k ∉ taken)
    (least : ∀ j, 1 ≤ j → j < k → numbered base j ∈ taken) :
    Gets taken base (numbered base k)

/-- The names that bases get one behind the other. -/
def freeNames (taken : List String) : List String → List String
  | [] => []
  | base :: rest => freeName taken base :: freeNames (taken ++ [freeName taken base]) rest

variable {taken bases : List String} {base name : String} {j k fuel : Nat}

/-! ### One name -/

/-- Different numbers behind a base make different names. -/
theorem numbered_inj :
  numbered base j = numbered base k ↔ j = k
  := by
  constructor
  · intro h
    rw [numbered, numbered, String.append_right_inj, Nat.toString_eq_ofList_toDigits,
      Nat.toString_eq_ofList_toDigits] at h
    have hdigits := congrArg (Nat.ofDigitChars 10 · 0) (String.ofList_injective h)
    simpa [Nat.ofDigitChars_toDigits] using hdigits
  · rintro rfl
    rfl

/-- A base with a number behind it is not the base. -/
theorem numbered_ne (base : String) (k : Nat) :
  numbered base k ≠ base
  := by
  rw [numbered, String.append_assoc, Ne, String.append_eq_left_iff, String.append_eq_empty_iff]
  rintro ⟨h, -⟩
  apply absurd h (by decide)

/-- Behind a base that is taken, one of as many numbers as there are names taken is free. -/
theorem exists_free (h : base ∈ taken) :
  ∃ k, 1 ≤ k ∧ k < 1 + taken.length ∧ numbered base k ∉ taken
  := by
  by_contra! hall
  -- otherwise the base and all of these names are taken, which are one too many
  have hsub : base :: (List.range' 1 taken.length).map (numbered base) ⊆ taken := by
    apply List.cons_subset.mpr
    use h
    intro name hname
    obtain ⟨k, hk, rfl⟩ := List.mem_map.mp hname
    obtain ⟨hpos, hlt⟩ := List.mem_range'_1.mp hk
    apply hall k hpos hlt
  have hnodup : (base :: (List.range' 1 taken.length).map (numbered base)).Nodup := by
    apply List.nodup_cons.mpr
    constructor
    · intro hbase
      obtain ⟨k, -, hk⟩ := List.mem_map.mp hbase
      apply numbered_ne base k hk
    · apply List.Nodup.map (fun _ _ => numbered_inj.mp)
      exact List.nodup_range'
  have hle := (List.subperm_of_subset hnodup hsub).length_le
  rw [List.length_cons, List.length_map, List.length_range'] at hle
  omega

/-- The first free one of some numbers is found if there is one. -/
theorem nextFree_of_exists (h : ∃ j, k ≤ j ∧ j < k + fuel ∧ numbered base j ∉ taken) :
  ∃ n, k ≤ n ∧ n < k + fuel ∧ nextFree taken base k fuel = numbered base n ∧
    numbered base n ∉ taken ∧ ∀ j, k ≤ j → j < n → numbered base j ∈ taken
  := by
  induction fuel generalizing k with
  | zero =>
      obtain ⟨j, hj, hlt, -⟩ := h
      omega
  | succ fuel ih =>
      rw [nextFree]
      by_cases hk : numbered base k ∈ taken
      · rw [if_pos (List.contains_iff_mem.mpr hk)]
        obtain ⟨j, hj, hlt, hfree⟩ := h
        have hne : j ≠ k := by
          rintro rfl
          apply hfree hk
        obtain ⟨n, hn, hlt', heq, hfree', hleast⟩ := ih (k := k + 1) ⟨j, by omega, by omega, hfree⟩
        use n, by omega, by omega, heq, hfree'
        intro i hi hin
        obtain rfl | hlt := Nat.eq_or_lt_of_le hi
        · apply hk
        · apply hleast i hlt hin
      · rw [if_neg (mt List.contains_iff_mem.mp hk)]
        use k, Nat.le_refl k, by omega, rfl, hk
        intro j hj hlt
        omega

/-- Every base gets a name. -/
theorem gets_freeName (taken : List String) (base : String) :
  Gets taken base (freeName taken base)
  := by
  rw [freeName]
  by_cases h : base ∈ taken
  · rw [if_pos (List.contains_iff_mem.mpr h)]
    obtain ⟨n, hpos, hlt, heq, hfree, hleast⟩ := nextFree_of_exists (exists_free h)
    rw [heq]
    apply Gets.counted h hpos (by omega) hfree hleast
  · rw [if_neg (mt List.contains_iff_mem.mp h)]
    apply Gets.itself h

/-- The name that a base gets is not taken. -/
theorem Gets.notMem (h : Gets taken base name) :
  name ∉ taken
  := by
  cases h with
  | itself free => apply free
  | counted _ _ _ free => apply free

/-- A base gets itself if it is not taken, and only then. -/
theorem Gets.eq_base_iff (h : Gets taken base name) :
  name = base ↔ base ∉ taken
  := by
  cases h with
  | itself free => simp [free]
  | counted used => simp [numbered_ne, used]

/-- A base gets itself or itself with a number behind it. -/
theorem Gets.eq_or_exists (h : Gets taken base name) :
  name = base ∨ ∃ k, 1 ≤ k ∧ name = numbered base k
  := by
  cases h with
  | itself =>
      left
      rfl
  | @counted k _ pos =>
      right
      use k, pos

/-- A number behind a base takes an underscore and its digits. -/
theorem length_numbered (base : String) (k : Nat) :
  (numbered base k).length = base.length + 1 + (Nat.toDigits 10 k).length
  := by
  rw [numbered, String.length_append, String.length_append, Nat.toString_eq_ofList_toDigits,
    String.length_ofList, String.length_ofList, List.length_singleton]

/-- A name is longer than its base by no more than an underscore and as many digits as there are
in the number of names taken. -/
theorem Gets.length_le {digits : Nat} (h : Gets taken base name) (hpos : 0 < digits)
    (hlt : taken.length < 10 ^ digits) :
  name.length ≤ base.length + 1 + digits
  := by
  cases h with
  | itself => omega
  | @counted k _ _ hle =>
      have hdigits := Nat.toDigits_length 10 k digits hpos (Nat.lt_of_le_of_lt hle hlt)
      rw [length_numbered]
      omega

/-- The name of an operation by its method and path is cut to the bound. -/
theorem length_nameFromPath_le (method : OpenApi.Method) (path : String) :
  (nameFromPath method path).length ≤ toolNameBound
  := by
  rw [nameFromPath, String.length_ofList]
  apply List.length_take_le

/-! ### Names in turn -/

/-- There is one name for each base. -/
theorem length_freeNames (taken bases : List String) :
  (freeNames taken bases).length = bases.length
  := by
  induction bases generalizing taken with
  | nil => rfl
  | cons base rest ih => rw [freeNames, List.length_cons, List.length_cons, ih]

/-- The second of two equal bases gets the number one. -/
theorem freeNames_pair (base : String) :
  freeNames [] [base, base] = [base, numbered base 1]
  := by
  simp [freeNames, freeName, nextFree, numbered_ne]

/-- What bases get does not hang on those behind them. -/
theorem freeNames_append (taken bases more : List String) :
  freeNames taken (bases ++ more) =
    freeNames taken bases ++ freeNames (taken ++ freeNames taken bases) more
  := by
  induction bases generalizing taken with
  | nil => rw [List.nil_append, freeNames, List.append_nil, List.nil_append]
  | cons base rest ih =>
      rw [List.cons_append, freeNames, ih, freeNames, List.cons_append, List.append_assoc]
      rfl

/-- The names are all different, and none of them was taken before. -/
theorem nodup_append_freeNames (h : taken.Nodup) (bases : List String) :
  (taken ++ freeNames taken bases).Nodup
  := by
  induction bases generalizing taken with
  | nil =>
      rw [freeNames, List.append_nil]
      apply h
  | cons base rest ih =>
      rw [freeNames, List.append_cons]
      apply ih
      rw [← List.concat_eq_append]
      apply h.concat (gets_freeName taken base).notMem

/-- The names are all different. -/
theorem nodup_freeNames (bases : List String) :
  (freeNames [] bases).Nodup
  := by
  apply nodup_append_freeNames List.nodup_nil

/-- Each base gets a name behind the names before it. -/
theorem gets_getElem? {i : Nat} (h : bases[i]? = some base) :
  ∃ name, (freeNames taken bases)[i]? = some name ∧
    Gets (taken ++ (freeNames taken bases).take i) base name
  := by
  induction bases generalizing taken i with
  | nil => cases h
  | cons b rest ih =>
      rw [freeNames.eq_def]
      dsimp only
      cases i with
      | zero =>
          cases h
          use freeName taken base, rfl
          rw [List.take_zero, List.append_nil]
          apply gets_freeName
      | succ i =>
          rw [List.getElem?_cons_succ] at h ⊢
          rw [List.take_succ_cons, List.append_cons taken _ (List.take i _)]
          apply ih h

/-- The first names are those of the first bases. -/
theorem take_freeNames (i : Nat) (bases : List String) :
  (freeNames taken bases).take i = freeNames taken (bases.take i)
  := by
  induction bases generalizing taken i with
  | nil => rw [List.take_nil, freeNames, List.take_nil]
  | cons base rest ih =>
      cases i with
      | zero => rfl
      | succ i => rw [freeNames, List.take_succ_cons, List.take_succ_cons, freeNames, ih]

/-- A name is one of the bases or one of them with a number behind it. -/
theorem exists_of_mem_freeNames (h : name ∈ freeNames taken bases) :
  ∃ base ∈ bases, name = base ∨ ∃ k, 1 ≤ k ∧ name = numbered base k
  := by
  induction bases generalizing taken with
  | nil => cases h
  | cons base rest ih =>
      obtain rfl | h := List.mem_cons.mp h
      · use base, List.mem_cons_self
        apply (gets_freeName taken base).eq_or_exists
      · obtain ⟨b, hb, hname⟩ := ih h
        use b, List.mem_cons_of_mem base hb

/-- Behind bases with their names, each of the bases is taken. -/
theorem mem_append_freeNames (h : base ∈ bases) :
  base ∈ taken ++ freeNames taken bases
  := by
  induction bases generalizing taken with
  | nil => cases h
  | cons b rest ih =>
      rw [freeNames, List.append_cons]
      obtain rfl | h := List.mem_cons.mp h
      · apply List.mem_append_left
        by_cases hb : base ∈ taken
        · apply List.mem_append_left _ hb
        · rw [(gets_freeName taken base).eq_base_iff.mpr hb]
          apply List.mem_append_right _ List.mem_cons_self
      · apply ih h

/-- A text that is none of some bases with a number behind it is one of their names if it is one
of the bases. -/
theorem mem_freeNames_iff (h : ∀ base ∈ bases, ∀ k, 1 ≤ k → name ≠ numbered base k) :
  name ∈ freeNames [] bases ↔ name ∈ bases
  := by
  constructor
  · intro hname
    obtain ⟨base, hbase, rfl | ⟨k, hk, hnumbered⟩⟩ := exists_of_mem_freeNames hname
    · apply hbase
    · cases h base hbase k hk hnumbered
  · intro hname
    have hmem : name ∈ [] ++ freeNames [] bases := mem_append_freeNames hname
    apply hmem

end ApiIntake
