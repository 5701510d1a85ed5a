import ApiIntake.Json.Basic
import Mathlib.Data.List.Basic
import Mathlib.Data.List.Sort

/-!
# Members in order

Members that are sorted stand ascending by key (`Json.ascending_sortMembers`), and they are the
same ones if no two of them have one key (`Json.mem_sortMembers_iff`).
-/

namespace ApiIntake.Json

variable {key : String} {value : Json} {m : String × Json} {members : List (String × Json)}

/-- The keys of members ascend. -/
def Ascending (members : List (String × Json)) : Prop := members.Pairwise fun a b => a.1 < b.1

/-- Ascending members are told apart by which ones they are. -/
theorem Ascending.eq_of_mem_iff {members' : List (String × Json)} (h : Ascending members)
    (h' : Ascending members') (hm : ∀ m, m ∈ members ↔ m ∈ members') :
  members = members'
  := by
  have hirrefl : Std.Irrefl fun a b : String × Json => a.1 < b.1 := ⟨fun a => String.lt_irrefl a.1⟩
  have hantisymm : Std.Antisymm fun a b : String × Json => a.1 < b.1 :=
    ⟨fun a b hab hba => absurd hba (String.lt_asymm hab)⟩
  apply List.Pairwise.eq_of_mem_iff h h' hm

/-- The keys of ascending members differ. -/
theorem Ascending.nodup (h : Ascending members) :
  (members.map Prod.fst).Nodup
  := by
  rw [List.Nodup, List.pairwise_map]
  apply h.imp
  intro a b
  apply String.ne_of_lt

section

variable {α : Type} {a : α} {table table' : List (String × α)}

/-- What is found under a key is there. -/
theorem mem_of_lookup (h : table.lookup key = some a) :
  (key, a) ∈ table
  := by
  obtain ⟨l₁, l₂, rfl, -⟩ := List.lookup_eq_some_iff.mp h
  apply List.mem_append_right _ List.mem_cons_self

/-- What is there is found under its key if no two entries have one key. -/
theorem lookup_of_mem (h : (table.map Prod.fst).Nodup) (ha : (key, a) ∈ table) :
  table.lookup key = some a
  := by
  obtain ⟨l₁, l₂, rfl⟩ := List.append_of_mem ha
  apply List.lookup_eq_some_iff.mpr
  use l₁, l₂, rfl
  intro m hmem
  rw [bne_iff_ne]
  rintro rfl
  rw [List.map_append, List.nodup_append] at h
  apply h.2.2 m.1 (List.mem_map_of_mem hmem) m.1 List.mem_cons_self rfl

/-- What is found under a key does not depend on the order of entries with different keys. -/
theorem lookup_congr (h : (table.map Prod.fst).Nodup) (hp : table.Perm table') :
  table.lookup key = table'.lookup key
  := by
  have h' := (hp.map Prod.fst).nodup_iff.mp h
  ext a
  constructor
  · intro ha
    apply lookup_of_mem h' (hp.mem_iff.mp (mem_of_lookup ha))
  · intro ha
    apply lookup_of_mem h (hp.mem_iff.mpr (mem_of_lookup ha))

end

/-- In place of one with the same key, a member stands among all others. -/
theorem mem_insertMember_iff (h : Ascending members) :
  m ∈ insertMember key value members ↔ m = (key, value) ∨ m ∈ members ∧ m.1 ≠ key
  := by
  induction members with
  | nil => simp [insertMember]
  | cons n rest ih =>
      obtain ⟨k, v⟩ := n
      obtain ⟨hn, hrest⟩ := List.pairwise_cons.mp h
      rw [insertMember]
      split
      case isTrue hlt =>
        have hne : ∀ m ∈ (k, v) :: rest, m.1 ≠ key := by
          intro m hm
          apply Ne.symm
          apply String.ne_of_lt
          obtain rfl | hm := List.mem_cons.mp hm
          · apply hlt
          · apply String.lt_trans hlt (hn m hm)
        rw [List.mem_cons]
        apply or_congr_right
        exact ⟨fun hm => ⟨hm, hne m hm⟩, And.left⟩
      case isFalse hlt =>
        split
        case isTrue heq =>
          obtain rfl := heq
          have hne : ∀ m ∈ rest, m.1 ≠ key := by
            intro m hm
            apply (String.ne_of_lt (hn m hm)).symm
          rw [List.mem_cons, List.mem_cons]
          apply or_congr_right
          constructor
          · intro hm
            exact ⟨.inr hm, hne m hm⟩
          · rintro ⟨rfl | hm, hkey⟩
            · apply absurd rfl hkey
            · apply hm
        case isFalse hne =>
          rw [List.mem_cons, List.mem_cons, ih hrest]
          constructor
          · rintro (rfl | rfl | ⟨hm, hkey⟩)
            · exact .inr ⟨.inl rfl, Ne.symm hne⟩
            · exact .inl rfl
            · exact .inr ⟨.inr hm, hkey⟩
          · rintro (rfl | ⟨rfl | hm, hkey⟩)
            · exact .inr (.inl rfl)
            · exact .inl rfl
            · exact .inr (.inr ⟨hm, hkey⟩)

/-- Members with one more in its place still ascend. -/
theorem ascending_insertMember (key : String) (value : Json) (h : Ascending members) :
  Ascending (insertMember key value members)
  := by
  induction members with
  | nil => apply List.pairwise_singleton
  | cons n rest ih =>
      obtain ⟨k, v⟩ := n
      obtain ⟨hn, hrest⟩ := List.pairwise_cons.mp h
      rw [insertMember]
      split
      case isTrue hlt =>
        apply List.pairwise_cons.mpr ⟨_, h⟩
        intro m hm
        obtain rfl | hm := List.mem_cons.mp hm
        · apply hlt
        · apply String.lt_trans hlt (hn m hm)
      case isFalse hlt =>
        split
        case isTrue heq =>
          obtain rfl := heq
          exact List.pairwise_cons.mpr ⟨hn, hrest⟩
        case isFalse hne =>
          apply List.pairwise_cons.mpr ⟨_, ih hrest⟩
          intro m hm
          obtain rfl | ⟨hm, -⟩ := (mem_insertMember_iff hrest).mp hm
          · apply Std.lt_of_le_of_ne (String.not_lt.mp hlt) (Ne.symm hne)
          · apply hn m hm

/-- Members put among others one by one ascend with them. -/
theorem ascending_foldl (h : Ascending members) (more : List (String × Json)) :
  Ascending (more.foldl (fun sorted (k, v) => insertMember k v sorted) members)
  := by
  induction more generalizing members with
  | nil => apply h
  | cons n more ih => apply ih (ascending_insertMember _ _ h)

/-- Members of different keys that are put among others one by one replace those with their
keys. -/
theorem mem_foldl_iff (h : Ascending members) {more : List (String × Json)}
    (hmore : (more.map Prod.fst).Nodup) :
  m ∈ more.foldl (fun sorted (k, v) => insertMember k v sorted) members ↔
    m ∈ more ∨ m ∈ members ∧ m.1 ∉ more.map Prod.fst
  := by
  induction more generalizing members with
  | nil => simp
  | cons n more ih =>
      obtain ⟨hn, hmore⟩ := List.nodup_cons.mp hmore
      rw [List.foldl_cons, ih (ascending_insertMember _ _ h) hmore, mem_insertMember_iff h]
      constructor
      · rintro (hm | ⟨rfl | ⟨hm, hkey⟩, hnew⟩)
        · exact .inl (List.mem_cons_of_mem _ hm)
        · exact .inl List.mem_cons_self
        · exact .inr ⟨hm, List.not_mem_cons_of_ne_of_not_mem hkey hnew⟩
      · rintro (hm | ⟨hm, hnew⟩)
        · obtain rfl | hm := List.mem_cons.mp hm
          · exact .inr ⟨.inl rfl, hn⟩
          · exact .inl hm
        · obtain ⟨hkey, hnew⟩ := not_or.mp (List.mem_cons.not.mp hnew)
          exact .inr ⟨.inr ⟨hm, hkey⟩, hnew⟩

/-- Sorted members ascend. -/
theorem ascending_sortMembers (members : List (String × Json)) :
  Ascending (sortMembers members)
  := by
  apply ascending_foldl List.Pairwise.nil

/-- Sorting keeps members of different keys, and no others. -/
theorem mem_sortMembers_iff (h : (members.map Prod.fst).Nodup) :
  m ∈ sortMembers members ↔ m ∈ members
  := by
  rw [sortMembers, mem_foldl_iff List.Pairwise.nil h]
  simp

/-- A member put among others is the only one besides them. -/
theorem insertMember_subset (key : String) (value : Json) (members : List (String × Json)) :
  insertMember key value members ⊆ (key, value) :: members
  := by
  induction members with
  | nil => apply List.Subset.refl
  | cons n rest ih =>
      obtain ⟨k, v⟩ := n
      rw [insertMember]
      split_ifs
      · apply List.Subset.refl
      · apply List.cons_subset_cons
        apply List.subset_cons_self
      · intro m hm
        obtain rfl | hm := List.mem_cons.mp hm
        · apply List.mem_cons_of_mem _ List.mem_cons_self
        · obtain rfl | hm := List.mem_cons.mp (ih hm)
          · apply List.mem_cons_self
          · apply List.mem_cons_of_mem _ (List.mem_cons_of_mem _ hm)

/-- Sorting adds no members. -/
theorem sortMembers_subset (members : List (String × Json)) :
  sortMembers members ⊆ members
  := by
  have hfold (more : List (String × Json)) : ∀ members : List (String × Json),
      more.foldl (fun sorted (k, v) => insertMember k v sorted) members ⊆ members ++ more := by
    induction more with
    | nil =>
        intro members
        rw [List.append_nil]
        apply List.Subset.refl
    | cons n more ih =>
        intro members m hm
        obtain hm | hm := List.mem_append.mp (ih _ hm)
        · obtain rfl | hm := List.mem_cons.mp (insertMember_subset _ _ _ hm)
          · apply List.mem_append_right _ List.mem_cons_self
          · apply List.mem_append_left _ hm
        · apply List.mem_append_right _ (List.mem_cons_of_mem _ hm)
  apply hfold members []

/-- Sorting leaves nothing only of nothing. -/
theorem sortMembers_eq_nil_iff :
  sortMembers members = [] ↔ members = []
  := by
  have hfold (more : List (String × Json)) : ∀ members : List (String × Json), members ≠ [] →
      more.foldl (fun sorted (k, v) => insertMember k v sorted) members ≠ [] := by
    induction more with
    | nil =>
        intro members h
        apply h
    | cons n more ih =>
        intro members h
        apply ih
        cases members with
        | nil => cases h rfl
        | cons a rest =>
            obtain ⟨k, v⟩ := a
            change insertMember n.1 n.2 ((k, v) :: rest) ≠ []
            rw [insertMember]
            split_ifs <;> apply List.cons_ne_nil
  constructor
  · intro h
    cases members with
    | nil => rfl
    | cons n more => cases hfold more _ (List.cons_ne_nil _ _) h
  · rintro rfl
    rfl

end ApiIntake.Json
