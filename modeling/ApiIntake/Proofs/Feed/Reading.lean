import Mathlib.Algebra.GroupWithZero.Nat
import ApiIntake.EventStream.Event
import ApiIntake.Proofs.Feed.Broadcast
import ApiIntake.Proofs.Run

/-!
# What subscribers read

The items that a subscriber reads walk through the announcements that were published since
it came (`Walk`): each of these is read, or skipped and counted, in turn.  What waits for a
subscriber is the window on the announcements that it has not come to yet: the newest ones,
as many as are kept, and the number of those in front of them (`Backlog.window`).

`reads_walk_through_published` says so of everything that can happen at a feed, and that no
subscriber notices what another one reads.
-/

namespace ApiIntake.Feed

/-! ### Walks -/

/-- The items walk through announcements, where each is read or skipped, in order and to the
end. -/
inductive Walk : List Update → List Delivery → Prop where
  /-- There is nothing to walk through. -/
  | done : Walk [] []
  /-- The next announcement is read. -/
  | updated {us : List Update} {ds : List Delivery} (u : Update) (h : Walk us ds) :
    Walk (u :: us) (.updated u :: ds)
  /-- The next announcements are skipped, and it is told how many they are. -/
  | lagged {skipped us : List Update} {ds : List Delivery} (some : skipped ≠ [])
    (h : Walk us ds) : Walk (skipped ++ us) (.lagged skipped.length :: ds)

/-- The announcement of an item, if it is one. -/
def Delivery.update? : Delivery → Option Update
  | .updated u => some u
  | .lagged _ => none

/-- How many announcements an item skips. -/
def Delivery.skips : Delivery → Nat
  | .updated _ => 0
  | .lagged missed => missed

namespace Walk

variable {us vs : List Update} {ds es : List Delivery}

/-- One walk goes on behind another. -/
theorem append (h : Walk us ds) (h' : Walk vs es) :
  Walk (us ++ vs) (ds ++ es)
  := by
  induction h with
  | done => apply h'
  | updated u _ ih => apply ih.updated
  | lagged some _ ih =>
      rw [List.append_assoc]
      apply ih.lagged some

/-- Announcements that are all read. -/
theorem map_updated (us : List Update) :
  Walk us (us.map .updated)
  := by
  induction us with
  | nil => apply done
  | cons u us ih => apply ih.updated

/-- A walk may begin with some announcements that are skipped. -/
theorem skip {n : Nat} (some : 0 < n) (hn : n ≤ us.length) (h : Walk (us.drop n) ds) :
  Walk us (.lagged n :: ds)
  := by
  have hl : (us.take n).length = n := List.length_take_of_le hn
  have hne : us.take n ≠ [] := by
    apply List.ne_nil_of_length_pos
    omega
  have hw := h.lagged hne
  rw [List.take_append_drop, hl] at hw
  apply hw

/-- What is read was there, in the same order and no more often. -/
theorem sublist (h : Walk us ds) :
  (ds.filterMap Delivery.update?).Sublist us
  := by
  induction h with
  | done => apply List.Sublist.refl
  | updated u _ ih => apply ih.cons_cons u
  | @lagged skipped us ds _ _ ih => apply ih.trans (List.sublist_append_right skipped us)

/-- What is read and what is skipped is all there is. -/
theorem length_eq (h : Walk us ds) :
  (ds.filterMap Delivery.update?).length + (ds.map Delivery.skips).sum = us.length
  := by
  induction h with
  | done => rfl
  | updated u _ ih =>
      simp only [List.filterMap_cons, Delivery.update?, List.map_cons, Delivery.skips,
        List.sum_cons, List.length_cons]
      omega
  | lagged _ _ ih =>
      simp only [List.filterMap_cons, Delivery.update?, List.map_cons, Delivery.skips,
        List.sum_cons, List.length_append]
      omega

end Walk

/-! ### Windows -/

namespace Backlog

/-- What waits for a subscriber that has not come to some announcements yet, of which the
newest are kept. -/
def window (keeps : Nat) (unread : List Update) : Backlog :=
  ⟨unread.length - keeps, unread.drop (unread.length - keeps)⟩

variable {keeps : Nat}

/-- One announcement more moves the window. -/
theorem push_window (keeps : Nat) (unread : List Update) (u : Update) :
  (window keeps unread).push keeps u = window keeps (unread ++ [u])
  := by
  have hl : unread.length - keeps ≤ unread.length := Nat.sub_le _ _
  simp only [push, window, ← List.drop_append_of_le_length hl, List.drop_drop, List.length_drop,
    List.length_append, List.length_singleton, mk.injEq]
  constructor
  · omega
  · congr 1
    omega

/-- If all is kept, all waits. -/
theorem window_of_le {unread : List Update} (h : unread.length ≤ keeps) :
  window keeps unread = ⟨0, unread⟩
  := by
  rw [window, Nat.sub_eq_zero_of_le h, List.drop_zero]

/-- Reading one item after another reads all that waits. -/
theorem deliveries_eq (q : Backlog) :
  q.deliveries = ((q.next?.map fun r => r.1 :: r.2.deliveries).getD [])
  := by
  obtain ⟨missed, waiting⟩ := q
  cases missed with
  | zero =>
      cases waiting with
      | nil => rfl
      | cons u us => rfl
  | succ missed => rfl

/-- What is read next is a gap if not all is kept, and otherwise the oldest announcement; a
gap leaves what is kept. -/
theorem next?_window (keeps : Nat) (unread : List Update) :
  (window keeps unread).next? =
    if keeps < unread.length then
      some (.lagged (unread.length - keeps),
        window keeps (unread.drop (unread.length - keeps)))
    else unread.head?.map fun u => (.updated u, window keeps unread.tail)
  := by
  by_cases h : keeps < unread.length
  · have hl : unread.length - keeps ≠ 0 := by omega
    have hk : unread.length - (unread.length - keeps) - keeps = 0 := by omega
    simp [next?, window, h, hl, hk]
  · have hl := Nat.le_of_not_lt h
    rw [if_neg h, window_of_le hl]
    cases unread with
    | nil => rfl
    | cons u us =>
        have hu : us.length ≤ keeps := Nat.le_of_succ_le hl
        rw [List.tail_cons, window_of_le hu]
        rfl

/-- All that waits is a gap if not all is kept, and what is kept. -/
theorem deliveries_window (keeps : Nat) (unread : List Update) :
  (window keeps unread).deliveries =
    (if keeps < unread.length then [.lagged (unread.length - keeps)] else []) ++
      (unread.drop (unread.length - keeps)).map .updated
  := by
  have h : unread.length - keeps ≠ 0 ↔ keeps < unread.length := by omega
  simp only [deliveries, window, h]

/-- Reading an item walks on through what was not come to yet, and leaves a window on the
rest. -/
theorem walk_of_next? {unread : List Update} {d : Delivery} {q : Backlog}
    (h : (window keeps unread).next? = some (d, q)) :
  ∃ read rest, unread = read ++ rest ∧ Walk read [d] ∧ q = window keeps rest
  := by
  rw [next?_window] at h
  split at h
  · cases h
    use unread.take (unread.length - keeps), unread.drop (unread.length - keeps)
    constructor
    · rw [List.take_append_drop]
    constructor
    · apply Walk.skip
      · omega
      · rw [List.length_take]
        omega
      · rw [List.drop_take_self]
        apply Walk.done
    · rfl
  · cases unread with
    | nil => cases h
    | cons u us =>
        cases h
        use [u], us
        exact ⟨rfl, Walk.done.updated u, rfl⟩

/-- Reading all that waits walks through all that was not come to yet. -/
theorem walk_deliveries_window (keeps : Nat) (unread : List Update) :
  Walk unread (window keeps unread).deliveries
  := by
  have h := Walk.map_updated (unread.drop (unread.length - keeps))
  rw [deliveries_window]
  split
  · apply h.skip
    · omega
    · omega
  · rename_i hl
    rw [Nat.sub_eq_zero_of_le (Nat.le_of_not_lt hl)] at h ⊢
    apply h

end Backlog

/-! ### What may happen at a feed -/

namespace Broadcast

/-- The next items of the stream of a subscriber, so many at most.  The stream goes on behind a
gap, and has nothing more to give when nothing waits. -/
def frames (id : Nat) : Nat → Broadcast → List Delivery × Broadcast
  | 0, b => ([], b)
  | n + 1, b =>
    match b.receive id with
    | (some d, b) => (d :: (frames id n b).1, (frames id n b).2)
    | (none, b) => ([], b)

end Broadcast

/-- What may happen at a feed. -/
inductive Act where
  /-- A subscriber comes. -/
  | subscribe
  /-- A subscriber goes. -/
  | unsubscribe (id : Nat)
  /-- An announcement is published. -/
  | publish (u : Update)
  /-- A configuration is announced, for a caller that may have given up. -/
  | announce (cancelled : Bool) (c : ServerConfig)
  /-- A subscriber takes so many items off its stream, if there are as many. -/
  | frames (id n : Nat)
  /-- A subscriber reads until nothing waits. -/
  | drain (id : Nat)

/-- What is answered. -/
inductive Answer where
  /-- The number of a new subscriber. -/
  | subscribed (id : Nat)
  /-- A subscriber is gone. -/
  | unsubscribed
  /-- To so many subscribers an announcement was handed. -/
  | published (receivers : Nat)
  /-- A configuration was announced or not. -/
  | announced (result : Except AnnounceFailure Unit)
  /-- What was read. -/
  | read (items : List Delivery)

/-- Lets something happen. -/
def Broadcast.act : Act → StateM Broadcast Answer
  | .subscribe => fun b => (.subscribed b.subscribe.1, b.subscribe.2)
  | .unsubscribe id => fun b => (.unsubscribed, b.unsubscribe id)
  | .publish u => fun b => (.published (b.publish u).1, (b.publish u).2)
  | .announce cancelled c => fun b =>
    (.announced (b.announce cancelled c).1, (b.announce cancelled c).2)
  | .frames id n => fun b => (.read (b.frames id n).1, (b.frames id n).2)
  | .drain id => fun b => (.read (b.drain id).1, (b.drain id).2)

/-- Whether a subscriber reads. -/
def Act.reads (id : Nat) : Act → Bool
  | .frames i _ | .drain i => i = id
  | _ => false

/-- A call at a feed. -/
abbrev Event := Turn Act Answer Broadcast

namespace Event

/-- The announcement that was published. -/
def sent? (t : Event) : Option Update :=
  match t.request with
  | .publish u => some u
  | .announce false c => some (.ofConfig c t.before.nextEventId)
  | _ => none

/-- The items that a subscriber read. -/
def itemsOf (id : Nat) (t : Event) : List Delivery :=
  match t.reply with
  | .read items => if t.request.reads id then items else []
  | _ => []

/-- Whether a subscriber came. -/
def cameOf (id : Nat) (t : Event) : Bool :=
  match t.reply with
  | .subscribed i => i = id
  | _ => false

/-- The subscribers behind a call, given those before it. -/
def subscribersAfter (ids : List Nat) (t : Event) : List Nat :=
  match t.request, t.reply with
  | .subscribe, .subscribed id => ids ++ [id]
  | .unsubscribe id, _ => ids.filter fun i => i ≠ id
  | _, _ => ids

/-- Nobody comes or goes at a call. -/
structure Settled (t : Event) : Prop where
  /-- Nobody comes. -/
  came : ∀ id, t.cameOf id = false
  /-- Nobody goes. -/
  subscribers : ∀ ids, t.subscribersAfter ids = ids

/-- Only subscribing and its counterpart change who is there. -/
theorem settled_act {a : Act} (hcome : a ≠ .subscribe) (hgo : ∀ id, a ≠ .unsubscribe id)
    (b b' : Broadcast) :
  Settled ⟨a, b, (b.act a).1, b'⟩
  := by
  cases a with
  | subscribe => apply absurd rfl hcome
  | unsubscribe id => apply absurd rfl (hgo id)
  | publish u => exact ⟨fun _ => rfl, fun _ => rfl⟩
  | announce cancelled c => exact ⟨fun _ => rfl, fun _ => rfl⟩
  | frames id n => exact ⟨fun _ => rfl, fun _ => rfl⟩
  | drain id => exact ⟨fun _ => rfl, fun _ => rfl⟩

/-- A subscriber that reads is given what is answered. -/
theorem itemsOf_of_reads {t : Event} {id : Nat} {items : List Delivery}
    (h : t.request.reads id = true) (hr : t.reply = .read items) :
  t.itemsOf id = items
  := by
  rw [itemsOf, hr]
  apply if_pos h

/-- A subscriber that does not read is given no items. -/
theorem itemsOf_of_not_reads {t : Event} {id : Nat} (h : t.request.reads id = false) :
  t.itemsOf id = []
  := by
  rw [itemsOf]
  split
  · rw [h]
    rfl
  · rfl

end Event

/-- The subscribers that came and have not gone. -/
def subscribersOf (turns : List Event) : List Nat := turns.foldl Event.subscribersAfter []

/-- The calls since a subscriber came. -/
def since (id : Nat) (turns : List Event) : List Event := turns.dropWhile fun t => !t.cameOf id

/-- The announcements that were published since a subscriber came. -/
def sentSince (id : Nat) (turns : List Event) : List Update :=
  (since id turns).filterMap Event.sent?

/-- The items that a subscriber has read since it came. -/
def readSince (id : Nat) (turns : List Event) : List Delivery :=
  (since id turns).flatMap (Event.itemsOf id)

namespace Broadcast

variable {b : Broadcast} {id i j keeps : Nat} {unread : List Update}

/-! ### Queues -/

/-- Only the queue of one subscriber is replaced. -/
theorem backlog?_setBacklog (b : Broadcast) (i : Nat) (q : Backlog) (id : Nat) :
  (b.setBacklog i q).backlog? id = if id = i then (b.backlog? id).map fun _ => q else b.backlog? id
  := by
  rw [setBacklog, backlog?]
  rw [lookup_map_key (fun j old => if j = i then q else old)]
  split
  · rfl
  · apply Option.map_id'

/-- Replacing a queue twice. -/
theorem setBacklog_setBacklog (b : Broadcast) (i : Nat) (p q : Backlog) :
  (b.setBacklog i p).setBacklog i q = b.setBacklog i q
  := by
  simp only [setBacklog, List.map_map]
  congr 1
  apply List.map_congr_left
  intro e _
  by_cases h : e.1 = i
  · simp [h]
  · simp [h]

/-- Replacing a queue leaves the subscribers what they are. -/
theorem map_fst_setBacklog (b : Broadcast) (i : Nat) (q : Backlog) :
  (b.setBacklog i q).subscribers.map Prod.fst = b.subscribers.map Prod.fst
  := by
  simp only [setBacklog, List.map_map]
  rfl

/-- Reading all that waits leaves nothing that waits. -/
theorem drain_eq (b : Broadcast) (id : Nat) :
  b.drain id = (((b.backlog? id).map Backlog.deliveries).getD [], b.setBacklog id .empty)
  := rfl

/-- A stream reads on through what its subscriber has not come to yet. -/
theorem walk_frames (n : Nat) (h : b.backlog? id = some (.window keeps unread)) :
  ∃ read rest, unread = read ++ rest ∧ Walk read (b.frames id n).1 ∧
    (b.frames id n).2.backlog? id = some (.window keeps rest)
  := by
  induction n generalizing b unread with
  | zero =>
      use [], unread
      exact ⟨rfl, Walk.done, h⟩
  | succ n ih =>
      rw [frames, receive, h, Option.bind_some]
      cases hn : (Backlog.window keeps unread).next? with
      | none =>
          use [], unread
          exact ⟨rfl, Walk.done, h⟩
      | some r =>
          obtain ⟨d, q⟩ := r
          obtain ⟨read, rest, rfl, hw, rfl⟩ := Backlog.walk_of_next? hn
          have hb : (b.setBacklog id (.window keeps rest)).backlog? id =
              some (.window keeps rest) := by
            rw [backlog?_setBacklog, if_pos rfl, h]
            rfl
          obtain ⟨read', rest', rfl, hw', hq⟩ := ih hb
          use read ++ read', rest'
          constructor
          · rw [List.append_assoc]
          constructor
          · apply hw.append hw'
          · apply hq

/-- A stream changes no queue but that of its subscriber. -/
theorem frames_cases (b : Broadcast) (id n : Nat) :
  (b.frames id n).2 = b ∨ ∃ q, (b.frames id n).2 = b.setBacklog id q
  := by
  induction n generalizing b with
  | zero =>
      left
      rfl
  | succ n ih =>
      rw [frames, receive]
      cases (b.backlog? id).bind Backlog.next? with
      | none =>
          left
          rfl
      | some r =>
          right
          obtain h | ⟨q, h⟩ := ih (b.setBacklog id r.2)
          · use r.2, h
          · use q
            rw [← b.setBacklog_setBacklog id r.2 q]
            apply h

/-- A stream gives, one by one, what would be read at once. -/
theorem frames_eq_take (b : Broadcast) (id n : Nat) :
  (b.frames id n).1 = (b.drain id).1.take n
  := by
  induction n generalizing b with
  | zero => rfl
  | succ n ih =>
      rw [frames, receive, drain_eq]
      cases hb : b.backlog? id with
      | none => rfl
      | some old =>
          rw [Option.bind_some, Option.map_some, Option.getD_some, old.deliveries_eq]
          cases hn : old.next? with
          | none => rfl
          | some r =>
              have hq : (b.setBacklog id r.2).backlog? id = some r.2 := by
                rw [backlog?_setBacklog, if_pos rfl, hb]
                rfl
              have hd : ((b.setBacklog id r.2).drain id).1 = r.2.deliveries := by
                rw [drain_eq, hq]
                rfl
              rw [Option.map_some, Option.getD_some, List.take_succ_cons, ← hd, ← ih]

/-- The queues of other subscribers are those that were there. -/
theorem backlog?_unsubscribe (b : Broadcast) (h : i ≠ id) :
  (b.unsubscribe id).backlog? i = b.backlog? i
  := by
  rw [unsubscribe, backlog?, backlog?]
  induction b.subscribers with
  | nil => rfl
  | cons e rest ih =>
      obtain ⟨j, q⟩ := e
      by_cases hj : j = id
      · have hi : (i == j) = false := by
          apply beq_false_of_ne
          rw [hj]
          apply h
        rw [List.filter_cons_of_neg (by simp [hj]), List.lookup_cons, hi]
        apply ih
      · rw [List.filter_cons_of_pos (by simp [hj]), List.lookup_cons, List.lookup_cons, ih]

/-- The queues of those that are there are as they were when somebody comes. -/
theorem backlog?_subscribe {q : Backlog} (h : b.backlog? id = some q) :
  b.subscribe.2.backlog? id = some q
  := by
  rw [backlog?] at h
  rw [backlog?, subscribe, List.lookup_append, h]
  rfl

/-- For somebody who comes nothing waits. -/
theorem backlog?_subscribe_new (h : b.backlog? b.nextSubscriber = none) :
  b.subscribe.2.backlog? b.nextSubscriber = some .empty
  := by
  rw [backlog?] at h
  rw [backlog?, subscribe, List.lookup_append, h]
  apply List.lookup_cons_self

/-! ### What other subscribers read -/

/-- Two feeds differ at most in the queue of a subscriber. -/
def SameBut (id : Nat) (b b' : Broadcast) : Prop := b.setBacklog id .empty = b'.setBacklog id .empty

/-- Replacing a queue makes no other difference. -/
theorem sameBut_setBacklog (b : Broadcast) (id : Nat) (q : Backlog) :
  SameBut id (b.setBacklog id q) b
  := by
  apply setBacklog_setBacklog

/-- The queues of two subscribers are replaced in either order. -/
theorem setBacklog_comm (b : Broadcast) (h : i ≠ j) (p q : Backlog) :
  (b.setBacklog i p).setBacklog j q = (b.setBacklog j q).setBacklog i p
  := by
  simp only [setBacklog, List.map_map]
  congr 1
  apply List.map_congr_left
  intro e _
  by_cases hi : e.1 = i
  · simp [hi, h]
  · simp [hi]

/-- A stream does not depend on the queue of another subscriber, and leaves it what it is. -/
theorem frames_setBacklog (b : Broadcast) (h : id ≠ i) (n : Nat) (q : Backlog) :
  (b.setBacklog id q).frames i n = ((b.frames i n).1, (b.frames i n).2.setBacklog id q)
  := by
  induction n generalizing b with
  | zero => rfl
  | succ n ih =>
      rw [frames, frames, receive, receive, backlog?_setBacklog, if_neg (Ne.symm h)]
      cases (b.backlog? i).bind Backlog.next? with
      | none => rfl
      | some r =>
          change (r.1 :: (frames i n ((b.setBacklog id q).setBacklog i r.2)).1, _) = _
          rw [b.setBacklog_comm h, ih]

/-- Publishing makes no difference because of the queue of a subscriber. -/
theorem sameBut_publish (b : Broadcast) (id : Nat) (q : Backlog) (u : Update) :
  SameBut id ((b.setBacklog id q).publish u).2 (b.publish u).2
  := by
  simp only [SameBut, setBacklog, publish, List.map_map]
  congr 1
  apply List.map_congr_left
  intro e _
  by_cases h : e.1 = id
  · simp [h]
  · simp [h]

/-- What is answered to others does not depend on the queue of a subscriber, and makes no
difference because of it. -/
theorem act_setBacklog {a : Act} (h : a.reads id = false) (b : Broadcast) (q : Backlog) :
  ((b.setBacklog id q).act a).1 = (b.act a).1 ∧
    SameBut id ((b.setBacklog id q).act a).2 (b.act a).2
  := by
  cases a with
  | subscribe =>
      constructor
      · rfl
      · have hs := congrArg Broadcast.subscribers (b.setBacklog_setBacklog id q .empty)
        simp only [setBacklog] at hs
        simp only [SameBut, act, Broadcast.subscribe, setBacklog, List.map_append, hs]
  | unsubscribe i =>
      have hb : (b.setBacklog id q).unsubscribe i = (b.unsubscribe i).setBacklog id q := by
        simp only [Broadcast.unsubscribe, setBacklog, List.filter_map]
        rfl
      constructor
      · rfl
      · simp only [act, hb]
        apply sameBut_setBacklog
  | publish u =>
      constructor
      · simp [act, publish, setBacklog]
      · apply sameBut_publish
  | announce cancelled c =>
      cases cancelled with
      | true =>
          constructor
          · rfl
          · apply sameBut_setBacklog
      | false =>
          constructor
          · rfl
          · apply b.takeEventId.2.sameBut_publish
  | frames i n =>
      have hi : id ≠ i := by
        simpa [Act.reads, eq_comm] using h
      simp only [act, b.frames_setBacklog hi, true_and]
      apply sameBut_setBacklog
  | drain i =>
      have hi : id ≠ i := by
        simpa [Act.reads, eq_comm] using h
      simp only [act, drain_eq, backlog?_setBacklog, if_neg (Ne.symm hi), true_and,
        b.setBacklog_comm hi]
      apply sameBut_setBacklog

/-- What a subscriber reads makes no other difference. -/
theorem sameBut_act {a : Act} (h : a.reads id = true) (b : Broadcast) :
  SameBut id (b.act a).2 b
  := by
  cases a with
  | frames i n =>
      obtain rfl : i = id := by
        simpa [Act.reads] using h
      obtain hb | ⟨q, hb⟩ := b.frames_cases i n
      · simp only [act, hb, SameBut]
      · simp only [act, hb]
        apply sameBut_setBacklog
  | drain i =>
      obtain rfl : i = id := by
        simpa [Act.reads] using h
      simp only [act, drain_eq]
      apply sameBut_setBacklog
  | subscribe => cases h
  | unsubscribe i => cases h
  | publish u => cases h
  | announce cancelled c => cases h

/-- Without what a subscriber reads, all others are answered the same. -/
theorem replies_without_reads {b' : Broadcast} (h : SameBut id b b') (acts : List Act) :
  ((history act b acts).filter fun t => !t.request.reads id).map (·.reply) =
    (history act b' (acts.filter fun a => !a.reads id)).map (·.reply)
  := by
  induction acts generalizing b b' with
  | nil => rfl
  | cons a acts ih =>
      rw [history]
      cases hr : a.reads id with
      | true =>
          rw [List.filter_cons_of_neg (by simp [hr]), List.filter_cons_of_neg (by simp [hr])]
          apply ih
          apply (sameBut_act hr b).trans h
      | false =>
          obtain ⟨hreply, hnext⟩ := act_setBacklog hr b .empty
          obtain ⟨hreply', hnext'⟩ := act_setBacklog hr b' .empty
          rw [SameBut] at h
          rw [h] at hreply hnext
          rw [List.filter_cons_of_pos (by simp [hr]), List.filter_cons_of_pos (by simp [hr]),
            history, List.map_cons, List.map_cons, ← hreply, ← hreply']
          congr 1
          apply ih
          apply hnext.symm.trans hnext'

end Broadcast

/-! ### Runs -/

section

variable {id : Nat} {turns : List Event} {t : Event}

/-- The calls since a subscriber came go on. -/
theorem since_concat (h : since id turns ≠ []) (t : Event) :
  since id (turns ++ [t]) = since id turns ++ [t]
  := by
  rw [since] at h
  rw [since, List.dropWhile_append, if_neg]
  · rfl
  · rw [List.isEmpty_iff]
    apply h

/-- Before a subscriber came there are no calls since then. -/
theorem since_concat_of_nil (h : since id turns = []) (ht : t.cameOf id = false) :
  since id (turns ++ [t]) = []
  := by
  rw [since] at h
  rw [since, List.dropWhile_append, h, List.isEmpty_nil, if_pos rfl]
  simp [ht]

/-- A subscriber comes. -/
theorem since_concat_of_came (h : since id turns = []) (ht : t.cameOf id = true) :
  since id (turns ++ [t]) = [t]
  := by
  rw [since] at h
  rw [since, List.dropWhile_append, h, List.isEmpty_nil, if_pos rfl]
  simp [ht]

/-- What was published since a subscriber came goes on. -/
theorem sentSince_concat (h : since id turns ≠ []) (t : Event) :
  sentSince id (turns ++ [t]) = sentSince id turns ++ t.sent?.toList
  := by
  rw [sentSince, since_concat h, List.filterMap_append, sentSince]
  cases ht : t.sent? with
  | none => simp [ht]
  | some u => simp [ht]

/-- What a subscriber has read goes on. -/
theorem readSince_concat (h : since id turns ≠ []) (t : Event) :
  readSince id (turns ++ [t]) = readSince id turns ++ t.itemsOf id
  := by
  rw [readSince, since_concat h, List.flatMap_append, List.flatMap_singleton, readSince]

/-- The subscribers behind one call more. -/
theorem subscribersOf_concat (turns : List Event) (t : Event) :
  subscribersOf (turns ++ [t]) = t.subscribersAfter (subscribersOf turns)
  := by
  rw [subscribersOf, List.foldl_concat]
  rfl

end

/-- At a feed that keeps so many announcements, every subscriber that has come has read on
through what was published since then, and a window on the rest waits for it. -/
structure Follows (keeps : Nat) (turns : List Event) (b : Broadcast) : Prop where
  /-- So many announcements are kept. -/
  kept : b.keeps = keeps
  /-- The subscribers are those that came and have not gone. -/
  subscribers : b.subscribers.map Prod.fst = subscribersOf turns
  /-- Their numbers were given to them. -/
  known : ∀ id ∈ subscribersOf turns, id < b.nextSubscriber
  /-- They have come. -/
  came : ∀ id ∈ subscribersOf turns, since id turns ≠ []
  /-- Nobody has come under a number that was not yet given. -/
  fresh : ∀ id, b.nextSubscriber ≤ id → since id turns = []
  /-- Each has read on, and a window on the rest waits. -/
  window : ∀ id ∈ subscribersOf turns, ∃ read unread, sentSince id turns = read ++ unread ∧
    Walk read (readSince id turns) ∧ b.backlog? id = some (.window keeps unread)

namespace Follows

variable {keeps : Nat} {turns : List Event} {b b' : Broadcast} {t : Event}

/-- Nobody has come to a new feed. -/
theorem ofCapacity (capacity : Nat) :
  Follows (Broadcast.ofCapacity capacity).keeps [] (.ofCapacity capacity)
  := by
  constructor
  · rfl
  · rfl
  · rintro id ⟨⟩
  · rintro id ⟨⟩
  · intro id _
    rfl
  · rintro id ⟨⟩

/-- A call at which nobody comes keeps all this if the subscribers that stay read on from
their windows. -/
theorem concat (h : Follows keeps turns b) (hk : b'.keeps = b.keeps)
    (hn : b'.nextSubscriber = b.nextSubscriber) (hc : ∀ id, t.cameOf id = false)
    (hs : b'.subscribers.map Prod.fst = t.subscribersAfter (subscribersOf turns))
    (hsub : t.subscribersAfter (subscribersOf turns) ⊆ subscribersOf turns)
    (hw : ∀ id ∈ t.subscribersAfter (subscribersOf turns), ∀ unread,
      b.backlog? id = some (.window keeps unread) →
        ∃ read rest, unread ++ t.sent?.toList = read ++ rest ∧ Walk read (t.itemsOf id) ∧
          b'.backlog? id = some (.window keeps rest)) :
  Follows keeps (turns ++ [t]) b'
  := by
  constructor
  · rw [hk, h.kept]
  · rw [hs, subscribersOf_concat]
  · intro id hid
    rw [subscribersOf_concat] at hid
    rw [hn]
    apply h.known id (hsub hid)
  · intro id hid
    rw [subscribersOf_concat] at hid
    rw [since_concat (h.came id (hsub hid))]
    simp
  · intro id hid
    rw [hn] at hid
    apply since_concat_of_nil (h.fresh id hid) (hc id)
  · intro id hid
    rw [subscribersOf_concat] at hid
    obtain ⟨read, unread, hsent, hread, hq⟩ := h.window id (hsub hid)
    obtain ⟨read', rest, hu, hread', hq'⟩ := hw id hid unread hq
    have hcame := h.came id (hsub hid)
    use read ++ read', rest
    constructor
    · rw [sentSince_concat hcame, hsent, List.append_assoc, hu, List.append_assoc]
    constructor
    · rw [readSince_concat hcame]
      apply hread.append hread'
    · apply hq'

/-- A call at which nobody comes or goes keeps all this if the subscribers read on from their
windows. -/
theorem settled (h : Follows keeps turns b) (ht : t.Settled) (hk : b'.keeps = b.keeps)
    (hn : b'.nextSubscriber = b.nextSubscriber)
    (hs : b'.subscribers.map Prod.fst = b.subscribers.map Prod.fst)
    (hw : ∀ id unread, b.backlog? id = some (.window keeps unread) →
      ∃ read rest, unread ++ t.sent?.toList = read ++ rest ∧ Walk read (t.itemsOf id) ∧
        b'.backlog? id = some (.window keeps rest)) :
  Follows keeps (turns ++ [t]) b'
  := by
  apply h.concat hk hn ht.came
  · rw [ht.subscribers, hs, h.subscribers]
  · rw [ht.subscribers]
    apply List.Subset.refl
  · intro id _
    apply hw id

/-- A number that was not yet given has no queue. -/
theorem backlog?_eq_none (h : Follows keeps turns b) :
  b.backlog? b.nextSubscriber = none
  := by
  apply List.lookup_eq_none_iff.mpr
  intro e he
  have hid : e.1 ∈ subscribersOf turns := by
    rw [← h.subscribers]
    apply List.mem_map_of_mem he
  have hlt := h.known e.1 hid
  apply bne_iff_ne.mpr
  omega

/-- A subscriber comes. -/
theorem subscribe (h : Follows keeps turns b)
    (ht : t = ⟨.subscribe, b, .subscribed b.subscribe.1, b.subscribe.2⟩) :
  Follows keeps (turns ++ [t]) b.subscribe.2
  := by
  have hs : subscribersOf (turns ++ [t]) = subscribersOf turns ++ [b.nextSubscriber] := by
    rw [subscribersOf_concat, ht]
    rfl
  have hcame : ∀ id, t.cameOf id = decide (b.nextSubscriber = id) := by
    intro id
    rw [ht]
    rfl
  have hsent : t.sent? = none := by
    rw [ht]
    rfl
  have hitems : ∀ id, t.itemsOf id = [] := by
    intro id
    apply Event.itemsOf_of_not_reads
    rw [ht]
    rfl
  have hnew : since b.nextSubscriber (turns ++ [t]) = [t] := by
    apply since_concat_of_came (h.fresh _ (Nat.le_refl _))
    rw [hcame]
    apply decide_eq_true rfl
  constructor
  · apply h.kept
  · rw [hs, ← h.subscribers, Broadcast.subscribe, List.map_append]
    rfl
  · intro id hid
    rw [hs] at hid
    obtain hid | hid := List.mem_append.mp hid
    · apply Nat.lt_succ_of_lt (h.known id hid)
    · rw [List.mem_singleton.mp hid]
      apply Nat.lt_succ_self
  · intro id hid
    rw [hs] at hid
    obtain hid | hid := List.mem_append.mp hid
    · rw [since_concat (h.came id hid)]
      apply List.concat_ne_nil
    · rw [List.mem_singleton.mp hid, hnew]
      apply List.cons_ne_nil
  · intro id hid
    have hid : b.nextSubscriber < id := hid
    apply since_concat_of_nil (h.fresh id (Nat.le_of_lt hid))
    rw [hcame]
    apply decide_eq_false
    omega
  · intro id hid
    rw [hs] at hid
    obtain hid | hid := List.mem_append.mp hid
    · have hc := h.came id hid
      obtain ⟨read, unread, hread, hw, hq⟩ := h.window id hid
      use read, unread
      rw [sentSince_concat hc, readSince_concat hc, hsent, hitems, Option.toList_none,
        List.append_nil, List.append_nil]
      exact ⟨hread, hw, Broadcast.backlog?_subscribe hq⟩
    · obtain rfl := List.mem_singleton.mp hid
      use [], []
      rw [sentSince, readSince, hnew, List.flatMap_singleton, hitems,
        List.filterMap_cons_none hsent, Backlog.window_of_le (Nat.zero_le keeps)]
      exact ⟨rfl, Walk.done, Broadcast.backlog?_subscribe_new h.backlog?_eq_none⟩

/-- A subscriber goes. -/
theorem unsubscribe (h : Follows keeps turns b) (id : Nat) :
  Follows keeps (turns ++ [⟨.unsubscribe id, b, .unsubscribed, b.unsubscribe id⟩])
    (b.unsubscribe id)
  := by
  apply h.concat
  · rfl
  · rfl
  · intro i
    rfl
  · change _ = (subscribersOf turns).filter fun i => i ≠ id
    rw [← h.subscribers, List.filter_map]
    rfl
  · intro i hi
    apply List.mem_of_mem_filter hi
  · intro i hi unread hq
    have hne : i ≠ id := by
      simpa using (List.mem_filter.mp hi).2
    use [], unread
    constructor
    · apply List.append_nil
    constructor
    · apply Walk.done
    · rw [Broadcast.backlog?_unsubscribe b hne, hq]

/-- An announcement is handed to all, while nobody comes, goes or reads. -/
theorem publish (h : Follows keeps turns b) {u : Update} (hs : t.Settled)
    (hr : ∀ id, t.request.reads id = false) (ht : t.sent? = some u) :
  Follows keeps (turns ++ [t]) (b.publish u).2
  := by
  apply h.settled hs
  · rfl
  · rfl
  · rw [Broadcast.publish, List.map_map]
    rfl
  · intro id unread hq
    use [], unread ++ [u]
    rw [ht, Event.itemsOf_of_not_reads (hr id), Broadcast.backlog?_publish, hq, h.kept,
      Option.map_some, Backlog.push_window]
    exact ⟨rfl, Walk.done, rfl⟩

/-- A call that leaves the feed as it is, or takes a number for an event. -/
theorem stay (h : Follows keeps turns b) (nextEventId : Nat) :
  Follows keeps turns { b with nextEventId }
  := by
  constructor
  · apply h.kept
  · apply h.subscribers
  · apply h.known
  · apply h.came
  · apply h.fresh
  · apply h.window

/-- A call at which nothing happens. -/
theorem idle (h : Follows keeps turns b) (hs : t.Settled) (hr : ∀ id, t.request.reads id = false)
    (ht : t.sent? = none) :
  Follows keeps (turns ++ [t]) b
  := by
  apply h.settled hs
  · rfl
  · rfl
  · rfl
  · intro id unread hq
    use [], unread
    rw [ht, Event.itemsOf_of_not_reads (hr id)]
    exact ⟨List.append_nil unread, Walk.done, hq⟩

/-- A subscriber reads on. -/
theorem read (h : Follows keeps turns b) (i : Nat) (hs : t.Settled)
    (hr : ∀ id, i ≠ id → t.request.reads id = false) (ht : t.sent? = none)
    (hb : b' = b ∨ ∃ q, b' = b.setBacklog i q)
    (hw : ∀ unread, b.backlog? i = some (.window keeps unread) →
      ∃ read rest, unread = read ++ rest ∧ Walk read (t.itemsOf i) ∧
        b'.backlog? i = some (.window keeps rest)) :
  Follows keeps (turns ++ [t]) b'
  := by
  apply h.settled hs
  · obtain rfl | ⟨q, rfl⟩ := hb <;> rfl
  · obtain rfl | ⟨q, rfl⟩ := hb <;> rfl
  · obtain rfl | ⟨q, rfl⟩ := hb
    · rfl
    · apply Broadcast.map_fst_setBacklog
  · intro id unread hq
    rw [ht, Option.toList_none, List.append_nil]
    by_cases hid : i = id
    · rw [← hid] at hq ⊢
      apply hw unread hq
    · use [], unread
      rw [Event.itemsOf_of_not_reads (hr id hid)]
      use rfl, Walk.done
      obtain rfl | ⟨q, rfl⟩ := hb
      · apply hq
      · rw [Broadcast.backlog?_setBacklog, if_neg (Ne.symm hid), hq]

/-- Whatever happens, all subscribers read on. -/
theorem act (h : Follows keeps turns b) (a : Act) :
  Follows keeps (turns ++ [⟨a, b, (b.act a).1, (b.act a).2⟩]) (b.act a).2
  := by
  cases a with
  | subscribe => apply h.subscribe rfl
  | unsubscribe id => apply h.unsubscribe id
  | publish u =>
      apply h.publish (Event.settled_act (by rintro ⟨⟩) (by rintro _ ⟨⟩) _ _)
      · intro id
        rfl
      · rfl
  | announce cancelled c =>
      have hs := Event.settled_act (a := .announce cancelled c) (by rintro ⟨⟩) (by rintro _ ⟨⟩) b
      cases cancelled with
      | true =>
          apply h.idle (hs _)
          · intro id
            rfl
          · rfl
      | false =>
          apply (h.stay b.takeEventId.2.nextEventId).publish (hs _)
          · intro id
            rfl
          · rfl
  | frames i n =>
      have hself : (Act.frames i n).reads i = true := decide_eq_true rfl
      apply h.read i (Event.settled_act (by rintro ⟨⟩) (by rintro _ ⟨⟩) _ _)
      · intro id hid
        apply decide_eq_false hid
      · rfl
      · apply b.frames_cases i n
      · intro unread hq
        rw [Event.itemsOf_of_reads hself rfl]
        apply Broadcast.walk_frames n hq
  | drain i =>
      have hself : (Act.drain i).reads i = true := decide_eq_true rfl
      apply h.read i (Event.settled_act (by rintro ⟨⟩) (by rintro _ ⟨⟩) _ _)
      · intro id hid
        apply decide_eq_false hid
      · rfl
      · right
        use .empty
        rfl
      · intro unread hq
        use unread, [], (List.append_nil unread).symm
        constructor
        · rw [Event.itemsOf_of_reads hself rfl, b.drain_eq, hq]
          apply Backlog.walk_deliveries_window
        · change (b.setBacklog i .empty).backlog? i = _
          rw [Broadcast.backlog?_setBacklog, if_pos rfl, hq, Option.map_some,
            Backlog.window_of_le (Nat.zero_le keeps)]
          rfl

/-- All subscribers read on throughout a run. -/
theorem run (capacity : Nat) (acts : List Act) :
  Follows (Broadcast.ofCapacity capacity).keeps
    (history Broadcast.act (.ofCapacity capacity) acts)
    (reached Broadcast.act (.ofCapacity capacity) acts)
  := by
  apply run_keeps (ofCapacity capacity)
  intro a _ turns b h
  apply h.act a

end Follows

/-- Whatever happens at a feed, each subscriber has read on to some place of what was published
since it came.  The rest of this is what it reads next: if more waits than is kept, it is first
told the surplus, and then it reads what is kept, in one go or one by one.  Then nothing is
missing, in the right order, and no announcement was read twice.  Publishing tells the number of
subscribers, and what one of them reads makes no difference to the others. -/
theorem reads_walk_through_published (capacity : Nat) (acts : List Act) :
  let run := history Broadcast.act (.ofCapacity capacity) acts
  let b := reached Broadcast.act (.ofCapacity capacity) acts
  ((∃ k, b.keeps = Nat.pow 2 k) ∧ max capacity 1 ≤ b.keeps ∧ b.keeps < 2 * max capacity 1) ∧
    (∀ id ∈ subscribersOf run,
      let next := (b.drain id).1
      let items := readSince id run ++ next
      (∃ read unread, sentSince id run = read ++ unread ∧ Walk read (readSince id run) ∧
        next =
          (if b.keeps < unread.length then [.lagged (unread.length - b.keeps)] else []) ++
            (unread.drop (unread.length - b.keeps)).map .updated) ∧
      (∀ n, (b.frames id n).1 = next.take n) ∧
      (EventStream.follow b id false).1 = (EventStream.textOf next, true) ∧
      Walk (sentSince id run) items ∧
      (items.filterMap Delivery.update?).Sublist (sentSince id run) ∧
      (items.filterMap Delivery.update?).length + (items.map Delivery.skips).sum =
        (sentSince id run).length) ∧
    (∀ u, (b.publish u).1 = (subscribersOf run).length) ∧
    ∀ id,
      let others := acts.filter fun a => !a.reads id
      (run.filter fun t => !t.request.reads id).map (·.reply) =
        (history Broadcast.act (.ofCapacity capacity) others).map (·.reply)
  := by
  intro run b
  have h : Follows (Broadcast.ofCapacity capacity).keeps run b := Follows.run capacity acts
  constructor
  · rw [h.kept]
    constructor
    · apply exists_leastPowerOfTwo
    constructor
    · apply le_leastPowerOfTwo
    · apply leastPowerOfTwo_lt
      omega
  constructor
  · intro id hid next items
    obtain ⟨read, unread, hsent, hread, hq⟩ := h.window id hid
    have hnext : next = (Backlog.window b.keeps unread).deliveries := by
      change (b.drain id).1 = _
      rw [b.drain_eq, hq, h.kept]
      rfl
    have hw : Walk (sentSince id run) items := by
      change Walk _ (readSince id run ++ next)
      rw [hsent, hnext]
      apply hread.append (Backlog.walk_deliveries_window _ _)
    constructor
    · use read, unread, hsent, hread
      rw [hnext, Backlog.deliveries_window]
    constructor
    · apply b.frames_eq_take id
    constructor
    · rfl
    exact ⟨hw, hw.sublist, hw.length_eq⟩
  constructor
  · intro u
    rw [← h.subscribers, List.length_map]
    rfl
  · intro id
    apply Broadcast.replies_without_reads
    rfl

/-- A subscriber that falls behind is told so first. -/
example (u v w : Update) :
  ((reached Broadcast.act (.ofCapacity 2) [.subscribe, .publish u, .publish v, .publish w]).drain
    0).1 = [.lagged 1, .updated v, .updated w]
  := rfl

end ApiIntake.Feed
