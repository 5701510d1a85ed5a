import ApiIntake.Import.Local
import ApiIntake.Proofs.Feed.Broadcast
import ApiIntake.Proofs.Import.Course
import ApiIntake.Proofs.Store.Catalog

/-!
# What a single process comes to keep

Storing and announcing either succeed or do nothing (`Local.of_create`,
`Local.of_announce`).  `Local.Reachable` tells which catalogs and feeds a single process can
come to, and the operations of its workbench lead from such to such
(`Local.keeps_reachable`).
-/

namespace ApiIntake.Import

open ApiIntake.Store (StoreFailure)
open ApiIntake.Feed (AnnounceFailure Broadcast Update)

namespace Local

variable {s t : Local} {cancelled : Bool} {c : ServerConfig}

/-! ### Single steps -/

/-- Storing either succeeds, and then the catalog has the configuration, or fails and does
nothing. -/
theorem of_create {a : Except StoreFailure Unit} (h : create cancelled c s = (a, t)) :
  (a = .ok () ∧ s.catalog.create cancelled c = .ok t.catalog ∧ t.feed = s.feed) ∨
    ∃ e, a = .error e ∧ t = s
  := by
  rw [create] at h
  cases hc : s.catalog.create cancelled c with
  | error e =>
      rw [hc] at h
      cases h
      right
      use e
  | ok k =>
      rw [hc] at h
      cases h
      left
      use rfl, rfl

/-- Where storing fails, everything is the same. -/
theorem eq_of_create {e : StoreFailure} (h : create cancelled c s = (.error e, t)) :
  t = s
  := by
  obtain ⟨⟨⟩, -⟩ | ⟨-, -, ht⟩ := of_create h
  apply ht

/-- What the catalog refuses is not stored. -/
theorem create_of_error {e : StoreFailure} (h : s.catalog.create cancelled c = .error e) :
  create cancelled c s = (.error e, s)
  := by
  rw [create, h]

/-- Announcing either succeeds, and then the announcement is published, or fails and does
nothing. -/
theorem of_announce {a : Except AnnounceFailure Unit} (h : announce cancelled c s = (a, t)) :
  (a = .ok () ∧ t.catalog = s.catalog ∧
    t.feed = (s.feed.takeEventId.2.publish (.ofConfig c s.feed.nextEventId)).2) ∨
    ∃ e, a = .error e ∧ t = s
  := by
  cases cancelled with
  | true =>
      cases h
      right
      use .cancelled
  | false =>
      cases h
      left
      use rfl, rfl
      rfl

/-- Where announcing fails, everything is the same. -/
theorem eq_of_announce {e : AnnounceFailure} (h : announce cancelled c s = (.error e, t)) :
  t = s
  := by
  obtain ⟨⟨⟩, -⟩ | ⟨-, -, ht⟩ := of_announce h
  apply ht

/-! ### Reachable states -/

/-- What a single process may come to keep: it begins with nothing, and stores, announces,
hands on announcements from elsewhere, and lets subscribers come, read and go. -/
inductive Reachable : Local → Prop
  /-- It begins with nothing. -/
  | ofCapacity (capacity : Nat) :
    Reachable (ofCapacity capacity)
  /-- It stores. -/
  | create (cancelled : Bool) (c : ServerConfig) {s : Local} (h : Reachable s) :
    Reachable (create cancelled c s).2
  /-- It announces. -/
  | announce (cancelled : Bool) (c : ServerConfig) {s : Local} (h : Reachable s) :
    Reachable (announce cancelled c s).2
  /-- It takes an event number. -/
  | takeEventId {s : Local} (h : Reachable s) :
    Reachable { s with feed := s.feed.takeEventId.2 }
  /-- It hands an announcement on. -/
  | publish (u : Update) {s : Local} (h : Reachable s) :
    Reachable { s with feed := (s.feed.publish u).2 }
  /-- A subscriber comes. -/
  | subscribe {s : Local} (h : Reachable s) :
    Reachable { s with feed := s.feed.subscribe.2 }
  /-- A subscriber goes. -/
  | unsubscribe (id : Nat) {s : Local} (h : Reachable s) :
    Reachable { s with feed := s.feed.unsubscribe id }
  /-- A subscriber reads one item. -/
  | receive (id : Nat) {s : Local} (h : Reachable s) :
    Reachable { s with feed := (s.feed.receive id).2 }
  /-- A subscriber reads all that waits. -/
  | drain (id : Nat) {s : Local} (h : Reachable s) :
    Reachable { s with feed := (s.feed.drain id).2 }

/-- Creating leaves the feed alone. -/
theorem feed_create (cancelled : Bool) (c : ServerConfig) (s : Local) :
  (create cancelled c s).2.feed = s.feed
  := by
  rw [create]
  cases s.catalog.create cancelled c with
  | error e => rfl
  | ok k => rfl

/-- The feed always keeps at least one announcement for a subscriber. -/
theorem Reachable.keeps_pos (h : s.Reachable) :
  0 < s.feed.keeps
  := by
  induction h with
  | ofCapacity capacity =>
      apply Broadcast.keeps_ofCapacity_pos
  | create cancelled c _ ih =>
      rw [feed_create]
      apply ih
  | announce cancelled c _ ih =>
      cases cancelled with
      | true => apply ih
      | false => apply ih
  | takeEventId _ ih => apply ih
  | publish u _ ih => apply ih
  | subscribe _ ih => apply ih
  | unsubscribe id _ ih => apply ih
  | receive id _ ih =>
      rw [Broadcast.keeps_receive]
      apply ih
  | drain id _ ih => apply ih

/-- The operations of a single process lead from reachable states to reachable states. -/
theorem keeps_reachable
    (convert : Destination → List UInt8 → Except ConvertError ServerConfig) :
  (benchBy convert).Keeps Reachable fun _ _ => True
  := by
  apply Workbench.Keeps.of_writes
  · intros
    rfl
  · intros
    rfl
  · intro cancelled c s hs
    apply hs.create cancelled c
  · intro cancelled c s hs
    apply hs.announce cancelled c

end Local

end ApiIntake.Import
