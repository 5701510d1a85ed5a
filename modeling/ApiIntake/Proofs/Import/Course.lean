import ApiIntake.Import.Workbench
import ApiIntake.Proofs.Run

/-!
# The course of an import

`Workbench.Course` tells for each way in which an import can end what the operations of
the workbench answered on the way, and from which state to which state they led.
`Workbench.Recourse` does the same for announcing a stored configuration once more.

What all operations of a workbench keep is kept by an import and by a second
announcement, wherever they stop (`Workbench.Keeps.importDocument`,
`Workbench.Keeps.reannounce`).  And where the operations of two workbenches answer alike
on states that a map carries over, so do imports and second announcements
(`Workbench.Projects.importDocument`, `Workbench.Projects.reannounce`).
-/

namespace ApiIntake.Import

open ApiIntake.Store (StoreFailure)
open ApiIntake.Feed (AnnounceFailure)

namespace Workbench

variable {τ σ : Type} (w : Workbench τ σ) (token : τ) (document : List UInt8)
  (destination : Destination) (name : String) (s : σ)

/-! ### Imports -/

/-- How an import that begins in a state goes, given how it ends and in which state. -/
inductive Course : Ending × σ → Prop
  /-- The conversion fails, and nothing else is tried. -/
  | notConverted {e : ConvertError} {s₁ : σ}
    (converted : w.convert destination document s = (.error e, s₁)) :
    Course (.notConverted e, s₁)
  /-- The store refuses what was converted, and nothing is announced. -/
  | notStored {c : ServerConfig} {e : StoreFailure} {s₁ s₂ : σ}
    (converted : w.convert destination document s = (.ok c, s₁))
    (created : w.create token c s₁ = (.error e, s₂)) :
    Course (.notStored e, s₂)
  /-- What was converted and stored is not announced. -/
  | notAnnounced {c : ServerConfig} {e : AnnounceFailure} {s₁ s₂ s₃ : σ}
    (converted : w.convert destination document s = (.ok c, s₁))
    (created : w.create token c s₁ = (.ok (), s₂))
    (announced : w.announce token c s₂ = (.error e, s₃)) :
    Course (.notAnnounced c e, s₃)
  /-- What was converted and stored is announced. -/
  | imported {c : ServerConfig} {s₁ s₂ s₃ : σ}
    (converted : w.convert destination document s = (.ok c, s₁))
    (created : w.create token c s₁ = (.ok (), s₂))
    (announced : w.announce token c s₂ = (.ok (), s₃)) :
    Course (.imported c, s₃)

/-- Every import takes one of the courses. -/
theorem course_importDocument :
  Course w token document destination s (w.importDocument token document destination s)
  := by
  rw [importDocument, bind_apply]
  rcases hc : w.convert destination document s with ⟨e | c, s₁⟩
  · apply Course.notConverted hc
  · dsimp only
    rw [bind_apply]
    rcases hs : w.create token c s₁ with ⟨e | _, s₂⟩
    · apply Course.notStored hc hs
    · dsimp only
      rw [bind_apply]
      rcases ha : w.announce token c s₂ with ⟨e | _, s₃⟩
      · apply Course.notAnnounced hc hs ha
      · apply Course.imported hc hs ha

/-- An import takes no other course than the one that its workbench makes it take. -/
theorem Course.eq {w : Workbench τ σ} {token : τ} {document : List UInt8}
    {destination : Destination} {s : σ} {r : Ending × σ}
    (h : Course w token document destination s r) :
  w.importDocument token document destination s = r
  := by
  rw [importDocument, bind_apply]
  cases h with
  | notConverted converted =>
      rw [converted]
      rfl
  | notStored converted created =>
      rw [converted]
      dsimp only
      rw [bind_apply, created]
      rfl
  | notAnnounced converted created announced =>
      rw [converted]
      dsimp only
      rw [bind_apply, created]
      dsimp only
      rw [bind_apply, announced]
      rfl
  | imported converted created announced =>
      rw [converted]
      dsimp only
      rw [bind_apply, created]
      dsimp only
      rw [bind_apply, announced]
      rfl

/-- An import that left a configuration in the store has converted, stored and tried to
announce this configuration. -/
theorem Course.of_stored? {w : Workbench τ σ} {token : τ} {document : List UInt8}
    {destination : Destination} {s : σ} {r : Ending × σ} {c : ServerConfig}
    (h : Course w token document destination s r) (hc : r.1.stored? = some c) :
  ∃ s₁ s₂ answer, w.convert destination document s = (.ok c, s₁) ∧
    w.create token c s₁ = (.ok (), s₂) ∧ w.announce token c s₂ = (answer, r.2)
  := by
  cases h with
  | notConverted => cases hc
  | notStored => cases hc
  | @notAnnounced _ e s₁ s₂ _ converted created announced =>
      cases hc
      use s₁, s₂, .error e, converted, created
  | @imported _ s₁ s₂ _ converted created announced =>
      cases hc
      use s₁, s₂, .ok (), converted, created

/-! ### Second announcements -/

/-- How a second announcement that begins in a state goes, given how it ends and in
which state. -/
inductive Recourse : Except ReannounceFailure ServerConfig × σ → Prop
  /-- The store fails. -/
  | unavailable {e : StoreFailure} {s₁ : σ}
    (got : w.get name s = (.error e, s₁)) :
    Recourse (.error (.store e), s₁)
  /-- There is no such configuration. -/
  | notFound {s₁ : σ}
    (got : w.get name s = (.ok none, s₁)) :
    Recourse (.error (.notFound name), s₁)
  /-- The configuration is not announced. -/
  | notAnnounced {c : ServerConfig} {e : AnnounceFailure} {s₁ s₂ : σ}
    (got : w.get name s = (.ok (some c), s₁))
    (announced : w.announce token c s₁ = (.error e, s₂)) :
    Recourse (.error (.announce e), s₂)
  /-- The configuration is announced. -/
  | announced {c : ServerConfig} {s₁ s₂ : σ}
    (got : w.get name s = (.ok (some c), s₁))
    (announced : w.announce token c s₁ = (.ok (), s₂)) :
    Recourse (.ok c, s₂)

/-- Every second announcement takes one of the courses. -/
theorem recourse_reannounce :
  Recourse w token name s (w.reannounce token name s)
  := by
  rw [reannounce, bind_apply]
  rcases hg : w.get name s with ⟨e | _ | c, s₁⟩
  · apply Recourse.unavailable hg
  · apply Recourse.notFound hg
  · dsimp only
    rw [bind_apply]
    rcases ha : w.announce token c s₁ with ⟨e | _, s₂⟩
    · apply Recourse.notAnnounced hg ha
    · apply Recourse.announced hg ha

/-- A second announcement takes no other course than the one that its workbench makes it
take. -/
theorem Recourse.eq {w : Workbench τ σ} {token : τ} {name : String} {s : σ}
    {r : Except ReannounceFailure ServerConfig × σ}
    (h : Recourse w token name s r) :
  w.reannounce token name s = r
  := by
  rw [reannounce, bind_apply]
  cases h with
  | unavailable got =>
      rw [got]
      rfl
  | notFound got =>
      rw [got]
      rfl
  | notAnnounced got announced =>
      rw [got]
      dsimp only
      rw [bind_apply, announced]
      rfl
  | announced got announced =>
      rw [got]
      dsimp only
      rw [bind_apply, announced]
      rfl

end Workbench

/-! ### What is kept -/

/-- The operations of a workbench keep a property of its states, where `Q` says of a state
which configurations may be announced: those that were just stored or found. -/
structure Workbench.Keeps {τ σ : Type} (w : Workbench τ σ) (P : σ → Prop)
    (Q : ServerConfig → σ → Prop) : Prop where
  /-- Converting keeps it. -/
  convert : ∀ {destination document s a t},
    w.convert destination document s = (a, t) → P s → P t
  /-- Creating keeps it. -/
  create : ∀ {token c s a t}, w.create token c s = (a, t) → P s → P t
  /-- What is stored may be announced. -/
  created : ∀ {token c s t}, w.create token c s = (.ok (), t) → P s → Q c t
  /-- Looking up keeps it. -/
  get : ∀ {name s a t}, w.get name s = (a, t) → P s → P t
  /-- What is found may be announced. -/
  got : ∀ {name c s t}, w.get name s = (.ok (some c), t) → P s → Q c t
  /-- Announcing keeps it. -/
  announce : ∀ {token c s a t}, w.announce token c s = (a, t) → P s → Q c s → P t

namespace Workbench

variable {τ σ : Type} {w : Workbench τ σ} {P : σ → Prop} {Q : ServerConfig → σ → Prop}
  {token : τ} {s : σ}

/-- Where converting and looking up leave the state alone, what creating and announcing keep is
kept, whatever may be announced. -/
theorem Keeps.of_writes
    (hconvert : ∀ destination document s, (w.convert destination document s).2 = s)
    (hget : ∀ name s, (w.get name s).2 = s)
    (hcreate : ∀ token c s, P s → P (w.create token c s).2)
    (hannounce : ∀ token c s, P s → P (w.announce token c s).2) :
  w.Keeps P fun _ _ => True
  := by
  constructor
  · intro destination document s a t ht hs
    rw [← hconvert destination document s, ht] at hs
    apply hs
  · intro token c s a t ht hs
    have h := hcreate token c s hs
    rw [ht] at h
    apply h
  · intros
    trivial
  · intro name s a t ht hs
    rw [← hget name s, ht] at hs
    apply hs
  · intros
    trivial
  · intro token c s a t ht hs _
    have h := hannounce token c s hs
    rw [ht] at h
    apply h

/-- A course leads to a state with a property that the operations keep. -/
theorem Course.keeps {document : List UInt8} {destination : Destination} {r : Ending × σ}
    (hr : Course w token document destination s r) (h : w.Keeps P Q) (hs : P s) :
  P r.2
  := by
  cases hr with
  | notConverted converted =>
      apply h.convert converted hs
  | notStored converted created =>
      apply h.create created
      apply h.convert converted hs
  | notAnnounced converted created announced =>
      have h₁ := h.convert converted hs
      apply h.announce announced (h.create created h₁) (h.created created h₁)
  | imported converted created announced =>
      have h₁ := h.convert converted hs
      apply h.announce announced (h.create created h₁) (h.created created h₁)

/-- The course of a second announcement leads to a state with a property that the
operations keep. -/
theorem Recourse.keeps {name : String} {r : Except ReannounceFailure ServerConfig × σ}
    (hr : Recourse w token name s r) (h : w.Keeps P Q) (hs : P s) :
  P r.2
  := by
  cases hr with
  | unavailable got =>
      apply h.get got hs
  | notFound got =>
      apply h.get got hs
  | notAnnounced got announced =>
      apply h.announce announced (h.get got hs) (h.got got hs)
  | announced got announced =>
      apply h.announce announced (h.get got hs) (h.got got hs)

/-- An import keeps what all operations keep. -/
theorem Keeps.importDocument (h : w.Keeps P Q) (token : τ) (document : List UInt8)
    (destination : Destination) (hs : P s) :
  P (w.importDocument token document destination s).2
  := by
  apply (w.course_importDocument token document destination s).keeps h hs

/-- A second announcement keeps what all operations keep. -/
theorem Keeps.reannounce (h : w.Keeps P Q) (token : τ) (name : String) (hs : P s) :
  P (w.reannounce token name s).2
  := by
  apply (w.recourse_reannounce token name s).keeps h hs

end Workbench

/-! ### What is carried over -/

/-- The operations of two workbenches answer alike on states that `π` carries over, and
lead to such states again. -/
structure Workbench.Projects {τ σ ρ : Type} (w : Workbench τ σ) (v : Workbench τ ρ)
    (π : σ → ρ) : Prop where
  /-- Converting does. -/
  convert : ∀ {destination document s a t},
    w.convert destination document s = (a, t) → v.convert destination document (π s) = (a, π t)
  /-- Creating does. -/
  create : ∀ {token c s a t}, w.create token c s = (a, t) → v.create token c (π s) = (a, π t)
  /-- Looking up does. -/
  get : ∀ {name s a t}, w.get name s = (a, t) → v.get name (π s) = (a, π t)
  /-- Announcing does. -/
  announce : ∀ {token c s a t},
    w.announce token c s = (a, t) → v.announce token c (π s) = (a, π t)

namespace Workbench

variable {τ σ ρ : Type} {w : Workbench τ σ} {v : Workbench τ ρ} {π : σ → ρ} {token : τ} {s t : σ}

/-- A course is carried over to a course with the same ending. -/
theorem Course.project {document : List UInt8} {destination : Destination} {r : Ending × σ}
    (hr : Course w token document destination s r) (h : w.Projects v π) :
  Course v token document destination (π s) (r.1, π r.2)
  := by
  cases hr with
  | notConverted converted =>
      apply Course.notConverted (h.convert converted)
  | notStored converted created =>
      apply Course.notStored (h.convert converted) (h.create created)
  | notAnnounced converted created announced =>
      apply Course.notAnnounced (h.convert converted) (h.create created) (h.announce announced)
  | imported converted created announced =>
      apply Course.imported (h.convert converted) (h.create created) (h.announce announced)

/-- The course of a second announcement is carried over to one with the same answer. -/
theorem Recourse.project {name : String} {r : Except ReannounceFailure ServerConfig × σ}
    (hr : Recourse w token name s r) (h : w.Projects v π) :
  Recourse v token name (π s) (r.1, π r.2)
  := by
  cases hr with
  | unavailable got =>
      apply Recourse.unavailable (h.get got)
  | notFound got =>
      apply Recourse.notFound (h.get got)
  | notAnnounced got announced =>
      apply Recourse.notAnnounced (h.get got) (h.announce announced)
  | announced got announced =>
      apply Recourse.announced (h.get got) (h.announce announced)

/-- Imports end alike on states that are carried over. -/
theorem Projects.importDocument (h : w.Projects v π) (token : τ) (document : List UInt8)
    (destination : Destination) (s : σ) :
  v.importDocument token document destination (π s) =
    ((w.importDocument token document destination s).1,
      π (w.importDocument token document destination s).2)
  := by
  apply Course.eq
  apply (w.course_importDocument token document destination s).project h

/-- Second announcements end alike on states that are carried over. -/
theorem Projects.reannounce (h : w.Projects v π) (token : τ) (name : String) (s : σ) :
  v.reannounce token name (π s) =
    ((w.reannounce token name s).1, π (w.reannounce token name s).2)
  := by
  apply Recourse.eq
  apply (w.recourse_reannounce token name s).project h

end Workbench

end ApiIntake.Import
