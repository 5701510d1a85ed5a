import ApiIntake.Store.Catalog
import Mathlib.Data.List.Basic
import Mathlib.Tactic.Use

/-!
# What creating does to a catalog

A catalog is read by name.  Creating a configuration either refuses, and then the name is
to blame or the caller gave up, or gives a catalog that has gained this one entry
(`Catalog.gains_of_create`).  An entry stays whatever is created behind it
(`Catalog.get?_of_create`).
-/

namespace ApiIntake

/-- A configuration without tools. -/
def bareConfig : ServerConfig where
  name := "pets_1"
  tenant := "acme"
  pathPrefix := "/pets"
  baseUrl := none
  tools := []
  metadata := []

namespace Store

/-- Whether a configuration is refused hangs on its name alone. -/
theorem refusal?_congr {c d : ServerConfig} (h : c.name = d.name) :
  refusal? c = refusal? d
  := by
  rw [refusal?, refusal?, h]

namespace Catalog

variable {k l : Catalog} {cancelled : Bool} {c d : ServerConfig} {name : String}

/-- A configuration is found under its own name only. -/
theorem name_of_get? (h : k.get? name = some c) :
  c.name = name
  := by
  have hc := List.find?_some h
  simpa using hc

/-- Behind the others a configuration is found if its name is new. -/
theorem get?_concat (k : Catalog) (c : ServerConfig) (name : String) :
  (Catalog.mk (k.configs ++ [c])).get? name =
    (k.get? name).or (if name = c.name then some c else none)
  := by
  by_cases h : name = c.name
  · simp [get?, List.find?_append, h]
  · have h' : ¬ c.name = name := fun e => h e.symm
    simp [get?, List.find?_append, h, h']

/-- A configuration is created if the caller is there, the name is not blank and nothing has
it yet; the configuration then stands behind all others. -/
theorem create_eq_ok_iff :
  k.create cancelled c = .ok l ↔
    cancelled = false ∧ refusal? c = none ∧ k.get? c.name = none ∧ l = ⟨k.configs ++ [c]⟩
  := by
  rw [create]
  cases cancelled with
  | true => simp
  | false =>
      cases hr : refusal? c with
      | some e => simp
      | none =>
          cases hg : k.get? c.name with
          | some d => simp
          | none => simp [eq_comm]

/-- A configuration whose name is not blank, but taken, is refused for that. -/
theorem create_of_taken (hr : refusal? c = none) (hg : k.get? c.name = some d) :
  k.create false c = .error (.nameTaken c.name)
  := by
  simp [create, hr, hg]

/-! ### What is gained -/

/-- The second catalog is the first one and a configuration under a new name. -/
structure Gains (before : Catalog) (c : ServerConfig) (after : Catalog) : Prop where
  /-- The name is new. -/
  new : before.get? c.name = none
  /-- The name leads to the configuration, and every other name where it led before. -/
  get? : ∀ name, after.get? name = if name = c.name then some c else before.get? name

/-- A catalog does not gain anything by staying what it is. -/
theorem not_gains_self (k : Catalog) (c : ServerConfig) :
  ¬ k.Gains c k
  := by
  rintro ⟨new, get?⟩
  have h := get? c.name
  rw [new, if_pos rfl] at h
  cases h

/-- Two catalogs differ by one configuration at most. -/
theorem Gains.unique (hc : k.Gains c l) (hd : k.Gains d l) :
  c = d
  := by
  have h := hd.get? c.name
  rw [hc.get?, if_pos rfl] at h
  by_cases hn : c.name = d.name
  · rw [if_pos hn] at h
    injection h
  · rw [if_neg hn, hc.new] at h
    cases h

/-- Creating adds the configuration and nothing else. -/
theorem gains_of_create (h : k.create cancelled c = .ok l) :
  k.Gains c l
  := by
  obtain ⟨-, -, hg, rfl⟩ := create_eq_ok_iff.mp h
  constructor
  · apply hg
  · intro name
    rw [get?_concat]
    by_cases hn : name = c.name
    · rw [if_pos hn, if_pos hn, hn, hg, Option.none_or]
    · rw [if_neg hn, if_neg hn, Option.or_none]

/-- Creating never takes a configuration away. -/
theorem get?_of_create (h : k.create cancelled c = .ok l) (hd : k.get? name = some d) :
  l.get? name = some d
  := by
  obtain ⟨-, -, hg, -⟩ := create_eq_ok_iff.mp h
  rw [(gains_of_create h).get?]
  by_cases hn : name = c.name
  · rw [hn, hg] at hd
    cases hd
  · rw [if_neg hn, hd]

end Catalog

end Store

end ApiIntake
