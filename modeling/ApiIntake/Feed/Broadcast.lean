import ApiIntake.Feed.Update

/-!
# The feed of announcements

A broadcast hands every announcement to all its subscribers.  For each subscriber it
keeps the newest announcements that were not read, up to a bound, and counts those that
it had to drop: a subscriber that reads is first told how many it missed.
-/

namespace ApiIntake.Feed

/-- Why an announcement fails. -/
inductive AnnounceFailure where
  /-- The announcement could not be delivered. -/
  | unavailable (reason : String)
  /-- The announcement could not be written. -/
  | unwritable (reason : String)
  /-- The caller gave up. -/
  | cancelled
deriving DecidableEq, Repr

/-- The text of an error. -/
def AnnounceFailure.message : AnnounceFailure → String
  | .unavailable reason => "notifier unavailable: " ++ reason
  | .unwritable reason => "failed to encode update event: " ++ reason
  | .cancelled => "operation cancelled"

/-- What a subscriber reads. -/
inductive Delivery where
  /-- An announcement. -/
  | updated (u : Update)
  /-- So many announcements were dropped; all should be loaded again. -/
  | lagged (missed : Nat)
deriving DecidableEq, Repr

/-- What waits for a subscriber. -/
structure Backlog where
  /-- How many announcements were dropped since the last reading. -/
  missed : Nat
  /-- The announcements that wait, the oldest first. -/
  waiting : List Update
deriving DecidableEq, Repr

namespace Backlog

/-- Nothing waits. -/
def empty : Backlog := ⟨0, []⟩

/-- Adds an announcement, and drops the oldest if more than `keeps` would wait. -/
def push (b : Backlog) (keeps : Nat) (u : Update) : Backlog :=
  let waiting := b.waiting ++ [u]
  let surplus := waiting.length - keeps
  ⟨b.missed + surplus, waiting.drop surplus⟩

/-- What is read next, and what waits after that. -/
def next? (b : Backlog) : Option (Delivery × Backlog) :=
  if b.missed ≠ 0 then some (.lagged b.missed, ⟨0, b.waiting⟩)
  else
    match b.waiting with
    | [] => none
    | u :: rest => some (.updated u, ⟨0, rest⟩)

/-- All that waits, in the order in which it is read. -/
def deliveries (b : Backlog) : List Delivery :=
  (if b.missed ≠ 0 then [.lagged b.missed] else []) ++ b.waiting.map .updated

end Backlog

/-- The least power of two that is not below a number. -/
def leastPowerOfTwo (n : Nat) : Nat := if n ≤ 1 then 1 else Nat.pow 2 ((n - 1).log2 + 1)

/-- A feed and its subscribers. -/
structure Broadcast where
  /-- How many announcements wait for a subscriber at most. -/
  keeps : Nat
  /-- The number of the next event. -/
  nextEventId : Nat
  /-- The number of the next subscriber. -/
  nextSubscriber : Nat
  /-- The subscribers by number. -/
  subscribers : List (Nat × Backlog)

namespace Broadcast

/-- The capacity that holds if none is chosen. -/
def defaultCapacity : Nat := 256

/-- A feed without subscribers.  It keeps the least power of two that is not below its
capacity. -/
def ofCapacity (capacity : Nat) : Broadcast where
  keeps := leastPowerOfTwo (max capacity 1)
  nextEventId := 1
  nextSubscriber := 0
  subscribers := []

/-- Adds a subscriber and gives its number. -/
def subscribe (b : Broadcast) : Nat × Broadcast :=
  (b.nextSubscriber,
    { b with
      nextSubscriber := b.nextSubscriber + 1
      subscribers := b.subscribers ++ [(b.nextSubscriber, .empty)] })

/-- Takes a subscriber away. -/
def unsubscribe (b : Broadcast) (id : Nat) : Broadcast :=
  { b with subscribers := b.subscribers.filter fun s => s.1 ≠ id }

/-- Hands an announcement to all subscribers and tells how many there are. -/
def publish (b : Broadcast) (u : Update) : Nat × Broadcast :=
  (b.subscribers.length,
    { b with subscribers := b.subscribers.map fun (id, backlog) => (id, backlog.push b.keeps u) })

/-- Takes the next event number; zero follows the greatest one. -/
def takeEventId (b : Broadcast) : Nat × Broadcast :=
  (b.nextEventId, { b with nextEventId := (b.nextEventId + 1) % Update.eventIdBound })

/-- Announces a configuration under the next event number, unless the call is
cancelled. -/
def announce (b : Broadcast) (cancelled : Bool) (c : ServerConfig) :
    Except AnnounceFailure Unit × Broadcast :=
  if cancelled then (.error .cancelled, b)
  else
    let (id, b) := b.takeEventId
    (.ok (), (b.publish (.ofConfig c id)).2)

/-- What waits for a subscriber. -/
def backlog? (b : Broadcast) (id : Nat) : Option Backlog := b.subscribers.lookup id

/-- Reads all that waits for a subscriber. -/
def drain (b : Broadcast) (id : Nat) : List Delivery × Broadcast :=
  (((b.backlog? id).map Backlog.deliveries).getD [],
    { b with
      subscribers :=
        b.subscribers.map fun (i, backlog) => (i, if i = id then .empty else backlog) })

end Broadcast

end ApiIntake.Feed
