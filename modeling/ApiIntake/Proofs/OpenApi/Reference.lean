import ApiIntake.OpenApi.Reference
import ApiIntake.Proofs.Outcome
import Mathlib.Tactic.Use

/-!
# Where references lead

A thing leads to itself, and a reference leads to where the thing leads that it points to
(`RefScope.LeadsTo`).  What is resolved is what it leads to.
-/

namespace ApiIntake.OpenApi.RefScope

open ApiIntake.Yaml (Value)

variable {α : Type} {r : RefScope} {decode? : Value → Option (RefOr α)} {x : RefOr α} {a b : α}

/-- A thing or a reference leads to a thing. -/
inductive LeadsTo (r : RefScope) (decode? : Value → Option (RefOr α)) : RefOr α → α → Prop
  /-- A thing leads to itself. -/
  | inline {a : α} :
    LeadsTo r decode? (.inline a) a
  /-- A reference leads where that leads which it points to. -/
  | ref {target : String} {next : RefOr α} {a : α} (h : r.follow decode? target = .ok next)
    (rest : LeadsTo r decode? next a) :
    LeadsTo r decode? (.ref target) a

/-- A reference leads to one thing only. -/
theorem LeadsTo.unique (ha : r.LeadsTo decode? x a) (hb : r.LeadsTo decode? x b) :
  a = b
  := by
  induction ha with
  | inline =>
      cases hb
      rfl
  | ref h _ ih =>
      cases hb with
      | ref h' rest =>
          rw [h] at h'
          cases h'
          apply ih rest

/-- What a chain of references comes to is what it leads to. -/
theorem leadsTo_of_chase {links : Nat} {seen : List String}
    (h : r.chase decode? links seen x = .ok a) :
  r.LeadsTo decode? x a
  := by
  induction links generalizing seen x with
  | zero =>
      cases x with
      | inline b =>
          cases h
          apply LeadsTo.inline
      | ref target => cases h
  | succ links ih =>
      cases x with
      | inline b =>
          cases h
          apply LeadsTo.inline
      | ref target =>
          rw [chase] at h
          split at h
          · cases h
          · obtain ⟨next, hn, h⟩ := bind_eq_ok_iff.mp h
            apply LeadsTo.ref hn (ih h)

/-- What is resolved is what it leads to. -/
theorem leadsTo_of_resolve (h : r.resolve decode? x = .ok a) :
  r.LeadsTo decode? x a
  := by
  apply leadsTo_of_chase h

end ApiIntake.OpenApi.RefScope
