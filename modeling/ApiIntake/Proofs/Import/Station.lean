import ApiIntake.Import.Local
import ApiIntake.Proofs.Feed.Broadcast
import ApiIntake.Proofs.Import.Watch

/-!
# What happens at a station

At a station documents are imported and stored configurations announced again, where any
operation may have to fail, while subscribers come, read and go.  An `Action` is one of
these, and `Station.act` carries it out.  A visit of a subscriber changes queues only, and
the subscriber reads what waits (`Visit.holdsOnly`).

Where a map of states carries the operations of one station over to those of another, it
carries over whatever happens (`Station.act_project`).
-/

namespace ApiIntake.Import

open ApiIntake.Feed (Broadcast Delivery Update)

/-- What a subscriber may do. -/
inductive Visit where
  /-- It comes. -/
  | subscribe
  /-- It goes. -/
  | unsubscribe (id : Nat)
  /-- It reads one item. -/
  | receive (id : Nat)
  /-- It reads all that waits. -/
  | drain (id : Nat)

/-- What may happen at a station. -/
inductive Action where
  /-- A document is imported. -/
  | importDocument (faults : Faults) (cancelled : Bool) (document : List UInt8)
    (destination : Destination)
  /-- A stored configuration is announced once more. -/
  | reannounce (faults : Faults) (cancelled : Bool) (name : String)
  /-- A subscriber does something. -/
  | visit (visit : Visit)

/-- What an action is answered. -/
inductive Reply where
  /-- An import ended. -/
  | ended (ending : Ending)
  /-- A second announcement ended. -/
  | reannounced (answer : Except ReannounceFailure ServerConfig)
  /-- A subscriber has got its number. -/
  | subscribed (id : Nat)
  /-- A subscriber is gone. -/
  | unsubscribed
  /-- One item was read, if there was any. -/
  | received (delivery : Option Delivery)
  /-- All that waited was read. -/
  | drained (deliveries : List Delivery)

/-- What a subscriber has read. -/
def Reply.deliveries : Reply → List Delivery
  | .received delivery => delivery.toList
  | .drained deliveries => deliveries
  | _ => []

/-- What a visit is answered, and what it makes of a feed. -/
def Visit.apply : Visit → Broadcast → Reply × Broadcast
  | .subscribe, b => (.subscribed b.subscribe.1, b.subscribe.2)
  | .unsubscribe id, b => (.unsubscribed, b.unsubscribe id)
  | .receive id, b => (.received (b.receive id).1, (b.receive id).2)
  | .drain id, b => (.drained (b.drain id).1, (b.drain id).2)

/-- After a visit nothing waits that did not wait before, and what was read did. -/
theorem Visit.holdsOnly {b : Broadcast} {sent : List Update} (h : b.HoldsOnly sent) (v : Visit) :
  (v.apply b).2.HoldsOnly sent ∧ ∀ u, .updated u ∈ (v.apply b).1.deliveries → u ∈ sent
  := by
  cases v with
  | subscribe =>
      use h.subscribe
      rintro u ⟨⟩
  | unsubscribe id =>
      use h.unsubscribe
      rintro u ⟨⟩
  | receive id =>
      use h.receive.1
      intro u hu
      apply h.receive.2 u (Option.mem_toList.mp hu)
  | drain id => apply h.drain

/-- A visit does not take an event number. -/
theorem Visit.nextEventId (v : Visit) (b : Broadcast) :
  (v.apply b).2.nextEventId = b.nextEventId
  := by
  cases v with
  | subscribe => rfl
  | unsubscribe id => rfl
  | receive id => apply b.nextEventId_receive
  | drain id => rfl

/-- A workbench, and where its states have a feed. -/
structure Station (σ : Type) where
  /-- The workbench.  A token says whether the caller has given up. -/
  bench : Workbench Bool σ
  /-- The feed of a state. -/
  feed : σ → Broadcast
  /-- The state with another feed. -/
  setFeed : Broadcast → σ → σ

/-- Runs what is watched while some operations have to fail. -/
def Watched.under {σ α : Type} (faults : Faults) (m : StateM (Watched σ) α) : StateM σ α := fun s =>
  let (a, x) := m ⟨[], faults, s⟩
  (a, x.inner)

namespace Station

variable {σ ρ : Type}

/-- The workbench under watch. -/
def watched (station : Station σ) : Workbench Bool (Watched σ) :=
  station.bench.watched fun cancelled _ => cancelled

/-- Carries out an action. -/
def act (station : Station σ) : Action → StateM σ Reply
  | .importDocument faults cancelled document destination =>
    Watched.under faults
      (Reply.ended <$> station.watched.importDocument cancelled document destination)
  | .reannounce faults cancelled name =>
    Watched.under faults (Reply.reannounced <$> station.watched.reannounce cancelled name)
  | .visit visit => fun s =>
    ((visit.apply (station.feed s)).1, station.setFeed (visit.apply (station.feed s)).2 s)

/-- The station of a single process that converts in a given way. -/
def ofLocal (convert : Destination → List UInt8 → Except ConvertError ServerConfig) :
    Station Local where
  bench := Local.benchBy convert
  feed := Local.feed
  setFeed feed s := { s with feed }

/-- Whatever happens is carried over. -/
theorem act_project (station : Station σ) (station' : Station ρ) (π : σ → ρ)
    (bench : station.bench.Projects station'.bench π)
    (feed : ∀ s, station'.feed (π s) = station.feed s)
    (setFeed : ∀ b s, station'.setFeed b (π s) = π (station.setFeed b s)) (a : Action) (s : σ) :
  station'.act a (π s) = ((station.act a s).1, π (station.act a s).2)
  := by
  have hw := bench.watched fun cancelled _ => cancelled
  cases a with
  | importDocument faults cancelled document destination =>
      have h := hw.importDocument cancelled document destination ⟨[], faults, s⟩
      apply congrArg (fun r => (Reply.ended r.1, r.2.inner)) h
  | reannounce faults cancelled name =>
      have h := hw.reannounce cancelled name ⟨[], faults, s⟩
      apply congrArg (fun r => (Reply.reannounced r.1, r.2.inner)) h
  | visit visit =>
      simp only [act, feed, setFeed]

end Station

end ApiIntake.Import
