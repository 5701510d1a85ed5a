import ApiIntake.Feed.Broadcast
import Mathlib.Data.List.Basic
import Mathlib.Tactic.Use

/-!
# What the operations of a feed do to its queues

Publishing pushes the announcement on the queue of every subscriber
(`Broadcast.backlog?_publish`), which then has gained this one announcement, be it that
the oldest ones had to go (`Backlog.gains_push`).

`Broadcast.HoldsOnly` says of a list of announcements that nothing else waits for any
subscriber.  Every operation keeps it, where publishing adds to the list, and what a
subscriber reads stands on the list.
-/

namespace ApiIntake.Feed

/-! ### Capacities -/

/-- What is kept is a power of two. -/
theorem exists_leastPowerOfTwo (n : Nat) :
  ∃ k, leastPowerOfTwo n = Nat.pow 2 k
  := by
  rw [leastPowerOfTwo]
  split
  · exact ⟨0, rfl⟩
  · exact ⟨(n - 1).log2 + 1, rfl⟩

/-- The least power of two that is not below a number is not below it. -/
theorem le_leastPowerOfTwo (n : Nat) :
  n ≤ leastPowerOfTwo n
  := by
  rw [leastPowerOfTwo]
  split
  · assumption
  · have h : n - 1 < Nat.pow 2 ((n - 1).log2 + 1) := Nat.lt_log2_self
    omega

/-- The least power of two that is not below a number is below its double. -/
theorem leastPowerOfTwo_lt {n : Nat} (h : 0 < n) :
  leastPowerOfTwo n < 2 * n
  := by
  rw [leastPowerOfTwo]
  split
  · omega
  · have hn : Nat.pow 2 (n - 1).log2 ≤ n - 1 := by
      apply Nat.log2_self_le
      omega
    have hsucc : Nat.pow 2 ((n - 1).log2 + 1) = Nat.pow 2 (n - 1).log2 * 2 := rfl
    omega

namespace Backlog

variable {b b' : Backlog} {u v : Update}

/-- How many announcements came for a subscriber since it last had to read, those that were
dropped included. -/
def total (b : Backlog) : Nat := b.missed + b.waiting.length

/-- The second queue is the first one and an announcement behind it, be it that the oldest
ones had to go. -/
structure Gains (before : Backlog) (u : Update) (after : Backlog) : Prop where
  /-- It is one announcement more. -/
  total : after.total = before.total + 1
  /-- The announcement waits behind all others. -/
  last : after.waiting.getLast? = some u
  /-- The others waited before, in the same order. -/
  waiting : after.waiting <:+ before.waiting ++ [u]

/-- A queue does not gain anything by staying what it is. -/
theorem not_gains_self (b : Backlog) (u : Update) :
  ¬ b.Gains u b
  := by
  intro h
  have ht := h.total
  omega

/-- What is pushed is gained. -/
theorem gains_push {keeps : Nat} (h : 0 < keeps) (b : Backlog) (u : Update) :
  b.Gains u (b.push keeps u)
  := by
  constructor
  · simp only [total, push, List.length_drop, List.length_append, List.length_singleton]
    omega
  · have hl : ¬ (b.waiting ++ [u]).length ≤ (b.waiting ++ [u]).length - keeps := by
      rw [List.length_append, List.length_singleton]
      omega
    rw [push, List.getLast?_drop, if_neg hl, List.getLast?_concat]
  · apply List.drop_suffix

/-- Nothing waits after a push that was not pushed and did not wait before. -/
theorem mem_waiting_of_push {keeps : Nat} (h : v ∈ (b.push keeps u).waiting) :
  v ∈ b.waiting ∨ v = u
  := by
  simpa using List.mem_of_mem_drop h

/-- The announcements that are read are those that wait. -/
theorem updated_mem_deliveries :
  .updated u ∈ b.deliveries ↔ u ∈ b.waiting
  := by
  by_cases h : b.missed ≠ 0
  · simp [deliveries, h]
  · simp [deliveries, h]

/-- An announcement that is read next waits, and nothing waits afterwards that did not wait
before. -/
theorem of_next? {d : Delivery} (h : b.next? = some (d, b')) :
  (∀ u, d = .updated u → u ∈ b.waiting) ∧ ∀ u ∈ b'.waiting, u ∈ b.waiting
  := by
  rw [next?] at h
  split at h
  · cases h
    constructor
    · rintro u ⟨⟩
    · intro u hu
      apply hu
  · split at h
    · cases h
    · rename_i first rest hw
      cases h
      constructor
      · rintro u ⟨⟩
        rw [hw]
        apply List.mem_cons_self
      · intro u hu
        rw [hw]
        apply List.mem_cons_of_mem _ hu

end Backlog

namespace Broadcast

variable {b : Broadcast} {u : Update} {id : Nat} {sent : List Update}

/-- A feed keeps at least one announcement for a subscriber. -/
theorem keeps_ofCapacity_pos (capacity : Nat) :
  0 < (ofCapacity capacity).keeps
  := by
  have h : max capacity 1 ≤ (ofCapacity capacity).keeps := le_leastPowerOfTwo _
  omega

/-! ### Reading one item -/

/-- Puts another queue in the place of that of a subscriber. -/
def setBacklog (b : Broadcast) (id : Nat) (backlog : Backlog) : Broadcast :=
  { b with subscribers := b.subscribers.map fun (i, old) => (i, if i = id then backlog else old) }

/-- Reads what comes next for a subscriber, if something waits. -/
def receive (b : Broadcast) (id : Nat) : Option Delivery × Broadcast :=
  match (b.backlog? id).bind Backlog.next? with
  | some (d, backlog) => (some d, b.setBacklog id backlog)
  | none => (none, b)

/-- Reading an item changes nothing but queues. -/
theorem receive_eq (b : Broadcast) (id : Nat) :
  ∃ subscribers, (b.receive id).2 = { b with subscribers }
  := by
  rw [receive]
  cases (b.backlog? id).bind Backlog.next? with
  | none => use b.subscribers
  | some r =>
      use (b.setBacklog id r.2).subscribers
      rfl

/-- Reading an item does not change how many are kept. -/
theorem keeps_receive (b : Broadcast) (id : Nat) :
  (b.receive id).2.keeps = b.keeps
  := by
  obtain ⟨_, h⟩ := b.receive_eq id
  rw [h]

/-- Reading an item does not take an event number. -/
theorem nextEventId_receive (b : Broadcast) (id : Nat) :
  (b.receive id).2.nextEventId = b.nextEventId
  := by
  obtain ⟨_, h⟩ := b.receive_eq id
  rw [h]

/-! ### Publishing and announcing -/

/-- Looking up a key in a list whose values were changed, each in its own way, gives the changed
value. -/
theorem lookup_map_key {γ δ : Type} (f : Nat → γ → δ) (id : Nat) (l : List (Nat × γ)) :
  (l.map fun e => (e.1, f e.1 e.2)).lookup id = (l.lookup id).map (f id)
  := by
  induction l with
  | nil => rfl
  | cons e rest ih =>
      obtain ⟨i, q⟩ := e
      rw [List.map_cons, List.lookup_cons, List.lookup_cons]
      cases h : id == i with
      | true =>
          rw [eq_of_beq h]
          rfl
      | false => apply ih

/-- Publishing pushes the announcement on the queue of every subscriber. -/
theorem backlog?_publish (b : Broadcast) (u : Update) (id : Nat) :
  (b.publish u).2.backlog? id = (b.backlog? id).map fun q => q.push b.keeps u
  := by
  apply lookup_map_key (fun _ (q : Backlog) => q.push b.keeps u)

/-- Publishes announcements one after the other. -/
def publishAll (b : Broadcast) (us : List Update) : Broadcast :=
  us.foldl (fun b u => (b.publish u).2) b

/-- One announcement more is published behind the others. -/
theorem publishAll_concat (b : Broadcast) (us : List Update) (u : Update) :
  b.publishAll (us ++ [u]) = ((b.publishAll us).publish u).2
  := by
  rw [publishAll, List.foldl_concat, publishAll]

/-! ### What may wait -/

/-- Nothing waits for any subscriber but announcements of a list. -/
def HoldsOnly (b : Broadcast) (sent : List Update) : Prop :=
  ∀ e ∈ b.subscribers, ∀ u ∈ e.2.waiting, u ∈ sent

/-- For no subscribers nothing waits. -/
theorem holdsOnly_ofCapacity (capacity : Nat) :
  (ofCapacity capacity).HoldsOnly []
  := by
  intro e he
  cases he

/-- For a new subscriber nothing waits. -/
theorem HoldsOnly.subscribe (h : b.HoldsOnly sent) :
  b.subscribe.2.HoldsOnly sent
  := by
  intro e he u hu
  obtain he | he := List.mem_append.mp he
  · apply h e he u hu
  · obtain rfl := List.mem_singleton.mp he
    cases hu

/-- Without a subscriber there is nothing more that waits. -/
theorem HoldsOnly.unsubscribe (h : b.HoldsOnly sent) :
  (b.unsubscribe id).HoldsOnly sent
  := by
  intro e he
  apply h e (List.mem_of_mem_filter he)

/-- Taking an event number changes no queue. -/
theorem HoldsOnly.takeEventId (h : b.HoldsOnly sent) :
  b.takeEventId.2.HoldsOnly sent
  := h

/-- After publishing an announcement, it may wait too. -/
theorem HoldsOnly.publish (h : b.HoldsOnly sent) :
  (b.publish u).2.HoldsOnly (sent ++ [u])
  := by
  intro e he v hv
  obtain ⟨old, hold, rfl⟩ := List.mem_map.mp he
  obtain hv | rfl := Backlog.mem_waiting_of_push hv
  · apply List.mem_append_left
    apply h old hold v hv
  · apply List.mem_append_right
    apply List.mem_singleton_self

/-- A queue in the place of another may hold what waited before. -/
theorem HoldsOnly.setBacklog {backlog : Backlog} (h : b.HoldsOnly sent)
    (hq : ∀ u ∈ backlog.waiting, u ∈ sent) :
  (b.setBacklog id backlog).HoldsOnly sent
  := by
  intro e he u hu
  obtain ⟨old, hold, rfl⟩ := List.mem_map.mp he
  by_cases hi : old.1 = id
  · simp only [if_pos hi] at hu
    apply hq u hu
  · simp only [if_neg hi] at hu
    apply h old hold u hu

/-- The queue of a subscriber is one of the queues. -/
theorem HoldsOnly.backlog? {backlog : Backlog} (h : b.HoldsOnly sent)
    (hb : b.backlog? id = some backlog) :
  ∀ u ∈ backlog.waiting, u ∈ sent
  := by
  obtain ⟨before, after, hs, -⟩ := List.lookup_eq_some_iff.mp hb
  apply h (id, backlog)
  rw [hs]
  apply List.mem_append_right
  apply List.mem_cons_self

/-- Reading all that waits takes it away. -/
theorem HoldsOnly.drain (h : b.HoldsOnly sent) :
  (b.drain id).2.HoldsOnly sent ∧ ∀ u, .updated u ∈ (b.drain id).1 → u ∈ sent
  := by
  constructor
  · apply h.setBacklog
    intro u hu
    cases hu
  · intro u hu
    rw [Broadcast.drain] at hu
    cases hb : b.backlog? id with
    | none => simp [hb] at hu
    | some backlog =>
        rw [hb] at hu
        apply h.backlog? hb
        apply Backlog.updated_mem_deliveries.mp hu

/-- Reading one item takes at most that away. -/
theorem HoldsOnly.receive (h : b.HoldsOnly sent) :
  (b.receive id).2.HoldsOnly sent ∧ ∀ u, (b.receive id).1 = some (.updated u) → u ∈ sent
  := by
  rw [Broadcast.receive]
  split
  · rename_i d backlog hn
    obtain ⟨old, hb, hn⟩ := Option.bind_eq_some_iff.mp hn
    obtain ⟨hd, hw⟩ := Backlog.of_next? hn
    constructor
    · apply h.setBacklog
      intro u hu
      apply h.backlog? hb u (hw u hu)
    · rintro u ⟨⟩
      apply h.backlog? hb u (hd u rfl)
  · constructor
    · apply h
    · rintro u ⟨⟩

end Broadcast

end ApiIntake.Feed
