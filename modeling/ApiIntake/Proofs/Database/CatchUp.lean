import ApiIntake.Proofs.Database.Numbers
import ApiIntake.Proofs.Store.Catalog
import Mathlib.Data.List.Nodup

/-!
# Catching up

A follower asks a node for recorded events and goes on behind the last one that it was given.
Numbers are given when events are recorded, but events are seen when they are committed; so
what is committed when the follower has already gone past its number is never given to it
(`Follower.poll_passes_over`).  Everything else is given to it once
(`Follower.received_of_poll`); that is all if events are committed in the order of their
numbers.
-/

namespace ApiIntake.Database

open ApiIntake.Feed (Update Broadcast)

/-! ### Nodes whose sessions are outside of transactions -/

/-- The pool of a node is open, and its sessions are outside of transactions. -/
structure Node.Clear (n : Node) : Prop where
  /-- The pool is open. -/
  isOpen : n.isOpen = true
  /-- No session is inside a transaction. -/
  idle : ∀ p ∈ n.idle, p = .outside

namespace Node

variable {n n' : Node} {p : Pooled}

/-- The session that a clear node uses next is outside of transactions. -/
theorem Clear.next (h : n.Clear) :
  n.next = .outside
  := by
  obtain hp | hp := n.next_mem
  · apply h.idle n.next hp
  · apply hp

/-- It does not matter how the database stands and what was sent. -/
theorem Clear.onServer (h : n.Clear) (server : Server) :
  { n with server, arrived := [] }.Clear
  := ⟨h.isOpen, h.idle⟩

/-- A session that is put back outside of transactions leaves a node clear. -/
theorem Clear.release {idle : List Pooled} (h : n.Clear) (hidle : ∀ q ∈ idle, q ∈ n.idle)
    (hp : p = .outside) :
  ∀ q ∈ idle ++ [p], q = .outside
  := by
  intro q hmem
  obtain hmem | hmem := List.mem_append.mp hmem
  · apply h.idle q (hidle q hmem)
  · rw [List.mem_singleton.mp hmem, hp]

/-- A step of an announcement whose caller does not give up while a transaction is being begun
leaves a node clear. -/
theorem Clear.step {origin : String} {t : Token} {c : ServerConfig} {stage stage' : Stage}
    (h : n.Clear) (hstep : Step origin t c n stage (stage', n'))
    (patient : t.cancelAt ≠ some .begin)
    (htaken : ∀ p, stage = .taken p → p = .outside) :
  n'.Clear ∧ ∀ p, stage' ≠ .taken p
  := by
  cases hstep with
  | begins =>
      use ⟨h.isOpen, h.idle⟩
      rintro p ⟨⟩
  | records =>
      use ⟨h.isOpen, h.idle⟩
      rintro p ⟨⟩
  | notifies =>
      use ⟨h.isOpen, h.idle⟩
      rintro p ⟨⟩
  | commits =>
      use ⟨h.isOpen, h.release (fun _ hq => hq) rfl⟩
      rintro p ⟨⟩
  | fails _ _ returned =>
      have hp := returned.outside_of_patient patient htaken
      use ⟨h.isOpen, h.release (fun _ hq => hq) hp⟩
      rintro p ⟨⟩

/-- Publishing leaves a node clear. -/
theorem Clear.publishCommitted (h : n.Clear) (stage : Stage) :
  (publishCommitted stage n).Clear
  := by
  rw [Node.publishCommitted.eq_def]
  split
  · exact ⟨h.isOpen, h.idle⟩
  · apply h

/-- Reading events back leaves a node clear. -/
theorem Clear.reads {after : Nat} {limit : Int} {r : Except EventError (List Update) × Node}
    (h : n.Clear) (hr : Reads n after limit r) :
  r.2.Clear
  := by
  cases hr with
  | refused => apply h
  | failed =>
      use h.isOpen
      apply h.release fun _ => List.mem_of_mem_tail
      rw [h.next, Pooled.session, Server.behindFailure_none]
      rfl
  | told => exact ⟨h.isOpen, h.release (fun _ => List.mem_of_mem_tail) h.next⟩

end Node

namespace Cluster

variable {k : Cluster} {place : Nat} {n : Node}

/-- The node in a place is clear, and no caller of it gives up while a transaction is being
begun. -/
structure Calm (place : Nat) (k : Cluster) : Prop where
  /-- The node is clear. -/
  node : ∃ n, k.nodes[place]? = some n ∧ n.Clear
  /-- So are the sessions that were just taken. -/
  taken : ∀ s ∈ k.sendings, s.place = place →
    s.token.cancelAt ≠ some .begin ∧ ∀ p, s.stage = .taken p → p = .outside

/-- A node of a calm place is clear. -/
theorem Calm.clear (h : k.Calm place) (hn : k.nodes[place]? = some n) :
  n.Clear
  := by
  obtain ⟨n', hn', hclear⟩ := h.node
  rw [hn] at hn'
  cases hn'
  apply hclear

/-- A place stays calm when a node is replaced by one that is clear if it stands there. -/
theorem Calm.set_map (h : k.Calm place) (p : Nat) (m : Node) (payloads : List String)
    (hm : p = place → m.Clear) :
  ∃ n, ((k.nodes.set p m).map (Node.receive payloads))[place]? = some n ∧ n.Clear
  := by
  obtain ⟨n, hn, hclear⟩ := h.node
  have hlt := (List.getElem?_eq_some_iff.mp hn).1
  rw [List.getElem?_map, List.getElem?_set]
  by_cases hp : p = place
  · rw [if_pos hp, hp, if_pos hlt]
    exact ⟨m.receive payloads, rfl, (hm hp).isOpen, (hm hp).idle⟩
  · rw [if_neg hp, hn]
    exact ⟨n.receive payloads, rfl, hclear.isOpen, hclear.idle⟩

/-- A place stays calm when nothing is announced. -/
theorem Calm.replace (h : k.Calm place) (server : Server) (p : Nat) (m : Node)
    (payloads : List String) (hm : p = place → m.Clear) :
  Calm place { k with server, nodes := (k.nodes.set p m).map (Node.receive payloads) }
  := ⟨h.set_map p m payloads hm, h.taken⟩

/-- A place stays calm when a node is called whose caller does not give up while a transaction is
being begun. -/
theorem Calm.call (h : k.Calm place) (p : Nat) (t : Token) (c : ServerConfig)
    (patient : p = place → t.cancelAt ≠ some .begin) :
  (act (.call p t c) k).2.Calm place
  := by
  obtain hc | ⟨n, idle, hn, hidle, reply, sendings, hc, hreply⟩ := act_call k p t c
  · rw [hc]
    apply h
  · rw [hc]
    constructor
    · apply h.set_map
      rintro rfl
      have hclear := h.clear hn
      exact ⟨hclear.isOpen, fun p hp => hclear.idle p (hidle p hp)⟩
    · intro s hs hplace
      obtain ⟨e, -, rfl⟩ | ⟨q, hq, -, rfl⟩ := hreply
      · apply h.taken s hs hplace
      · obtain hs | hs := List.mem_append.mp hs
        · apply h.taken s hs hplace
        · obtain rfl := List.mem_singleton.mp hs
          obtain rfl : p = place := hplace
          use patient rfl
          rintro q ⟨⟩
          obtain hq | hq := hq
          · apply (h.clear hn).idle q hq
          · apply hq

/-- A place stays calm when an announcement goes on. -/
theorem Calm.proceed (hk : k.Sound) (h : k.Calm place) (i : Nat) :
  (act (.proceed i) k).2.Calm place
  := by
  obtain hp | ⟨s, n, stage, n', hs, hn, -, hstep, hp⟩ := act_proceed hk i
  · rw [hp]
    apply h
  · have htaken := h.taken s (List.mem_of_getElem? hs)
    have hclear : s.place = place → n'.Clear ∧ ∀ q, stage ≠ .taken q := by
      rintro rfl
      obtain ⟨patient, htaken⟩ := htaken rfl
      apply ((h.clear hn).onServer k.server).step hstep patient htaken
    rw [hp]
    constructor
    · apply h.set_map
      intro hplace
      have hpublished := (hclear hplace).1.publishCommitted stage
      exact ⟨hpublished.isOpen, hpublished.idle⟩
    · intro s' hs' hplace
      obtain hs' | ⟨rfl, -⟩ := of_mem_bring hs'
      · apply h.taken s' hs' hplace
      · use (htaken hplace).1
        intro q hstage
        apply absurd hstage ((hclear hplace).2 q)

/-- A place stays calm when a notification is handed to listeners. -/
theorem Calm.deliver (h : k.Calm place) (p i : Nat) :
  (act (.deliver p i) k).2.Calm place
  := by
  obtain hd | ⟨n, payload, hn, -, hd⟩ := act_deliver k p i
  · rw [hd]
    apply h
  · rw [hd]
    apply h.replace k.server
    rintro rfl
    exact ⟨(h.clear hn).isOpen, (h.clear hn).idle⟩

/-- A place stays calm when recorded events are read back. -/
theorem Calm.replay (h : k.Calm place) (p after : Nat) (limit : Int) :
  (act (.replay p after limit) k).2.Calm place
  := by
  obtain hr | ⟨n, result, n', hn, hreads, hr⟩ := act_replay k p after limit
  · rw [hr]
    apply h
  · rw [hr]
    apply h.replace n'.server
    rintro rfl
    have hclear := ((h.clear hn).onServer k.server).reads hreads
    exact ⟨hclear.isOpen, hclear.idle⟩

/-- A place stays calm if no caller of it gives up while a transaction is being begun. -/
theorem calm_act (hk : k.Sound) (h : k.Calm place) (a : Act)
    (patient : ∀ t c, a = .call place t c → t.cancelAt ≠ some .begin) :
  (act a k).2.Calm place
  := by
  cases a with
  | call p t c =>
      apply h.call
      rintro rfl
      apply patient t c rfl
  | proceed i => apply h.proceed hk
  | inject payload =>
      obtain ⟨n, hn, hclear⟩ := h.node
      constructor
      · use n.receive [payload]
        use by rw [act, List.getElem?_map, hn]; rfl
        exact ⟨hclear.isOpen, hclear.idle⟩
      · apply h.taken
  | deliver p i => apply h.deliver
  | replay p after limit => apply h.replay
  | fail fault => exact ⟨h.node, h.taken⟩

/-- What a node of a calm place reads are the events of the tables, unless it fails. -/
theorem Calm.replayed (h : k.Calm place) (after : Nat) (limit : Int) :
  (∃ e, (act (.replay place after limit) k).1 = .replayed (.error e)) ∨
    (act (.replay place after limit) k).1 = .replayed (k.server.tables.told after limit.toNat)
  := by
  obtain ⟨n, hn, hclear⟩ := h.node
  have hr := Node.reads_replay { n with server := k.server, arrived := [] } after limit
  have hnext := (hclear.onServer k.server).next
  simp only [act, hn, runAt]
  generalize Node.replay after limit _ = r at hr ⊢
  cases hr with
  | @refused e =>
      left
      use e
  | @failed e =>
      left
      use .access "select config events" (.database e)
  | told =>
      right
      rw [hnext]
      rfl

/-- It does not fail if the numbers are in range and nothing was told to fail. -/
theorem Calm.replayed_eq {after : Nat} {limit : Int} (h : k.Calm place)
    (hafter : after < 0x8000000000000000) (hlimit : 0 ≤ limit)
    (intact : ∀ fault ∈ k.server.faults, fault.kind ≠ .replay) :
  (act (.replay place after limit) k).1 = .replayed (k.server.tables.told after limit.toNat)
  := by
  obtain ⟨n, hn, hclear⟩ := h.node
  have hclear' := hclear.onServer k.server
  simp only [act, hn, runAt]
  rw [Node.replay_eq hclear'.isOpen hafter hlimit intact, hclear'.next]
  rfl

end Cluster

/-! ### Announcements by their numbers -/

/-- The announcements up to a number are those up to a lower one and those between. -/
theorem filter_split (l : List Update) {c c' : Nat} (hle : c ≤ c') :
  ((l.filter fun u => u.eventId ≤ c) ++
      (l.filter fun u => c < u.eventId).filter fun u => u.eventId ≤ c').Perm
    (l.filter fun u => u.eventId ≤ c')
  := by
  have hlow : (l.filter fun u => u.eventId ≤ c) =
      (l.filter fun u => u.eventId ≤ c').filter fun u => u.eventId ≤ c := by
    rw [List.filter_filter]
    apply List.filter_congr
    intro u _
    rw [← Bool.decide_and, decide_eq_decide]
    omega
  have hhigh : ((l.filter fun u => c < u.eventId).filter fun u => u.eventId ≤ c') =
      (l.filter fun u => u.eventId ≤ c').filter fun u => !decide (u.eventId ≤ c) := by
    rw [List.filter_filter, List.filter_filter]
    apply List.filter_congr
    intro u _
    rw [← decide_not, Bool.and_comm]
    congr 2
    rw [Nat.not_le]
  rw [hlow, hhigh]
  apply List.filter_append_perm

/-- The announcements behind a number are among those behind a lower one. -/
theorem filter_later (l : List Update) {c c' : Nat} (hle : c ≤ c') :
  (l.filter fun u => c' < u.eventId) =
    (l.filter fun u => c < u.eventId).filter fun u => c' < u.eventId
  := by
  rw [List.filter_filter]
  apply List.filter_congr
  intro u _
  rw [← Bool.decide_and, decide_eq_decide]
  omega

/-- Nothing behind a number is up to it. -/
theorem filter_behind (l : List Update) (c : Nat) :
  ((l.filter fun u => c < u.eventId).filter fun u => u.eventId ≤ c) = []
  := by
  apply List.filter_eq_nil_iff.mpr
  intro u hu
  have hlt := of_decide_eq_true (List.mem_filter.mp hu).2
  simpa using hlt

/-- The last of announcements in the order of their numbers has the highest one. -/
theorem le_getLast {l : List Update} {u v : Update}
    (h : l.Pairwise fun u v => u.eventId < v.eventId) (hu : l.getLast? = some u) (hv : v ∈ l) :
  v.eventId ≤ u.eventId
  := by
  obtain ⟨init, rfl⟩ := List.getLast?_eq_some_iff.mp hu
  obtain hv | hv := List.mem_append.mp hv
  · apply Nat.le_of_lt ((List.pairwise_append.mp h).2.2 v hv u (List.mem_singleton_self u))
  · apply Nat.le_of_eq (congrArg Update.eventId (List.mem_singleton.mp hv))

/-- What is taken of announcements in the order of their numbers are those up to the last one
that is taken. -/
theorem filter_getLast {l : List Update} {m : Nat} {u : Update}
    (h : l.Pairwise fun u v => u.eventId < v.eventId) (hu : (l.take m).getLast? = some u) :
  (l.filter fun v => v.eventId ≤ u.eventId) = l.take m
  := by
  rw [← List.take_append_drop m l] at h
  obtain ⟨htake, -, hdrop⟩ := List.pairwise_append.mp h
  calc (l.filter fun v => v.eventId ≤ u.eventId)
      = (l.take m).filter (fun v => v.eventId ≤ u.eventId) ++
          (l.drop m).filter (fun v => v.eventId ≤ u.eventId) := by
        rw [← List.filter_append, List.take_append_drop]
    _ = l.take m ++ [] := by
        congr 1
        · apply List.filter_eq_self.mpr
          intro v hv
          exact decide_eq_true (le_getLast htake hu hv)
        · apply List.filter_eq_nil_iff.mpr
          intro v hv
          simp [hdrop u (List.mem_of_getLast? hu) v hv]
    _ = l.take m := by rw [List.append_nil]

/-! ### Followers -/

/-- A follower of the events of a cluster. -/
structure Follower where
  /-- The cluster. -/
  cluster : Cluster
  /-- The number behind which it goes on. -/
  cursor : Nat
  /-- What it was given. -/
  received : List Update

namespace Follower

/-- What may happen. -/
inductive Act where
  /-- Something happens in the cluster. -/
  | happen (a : Cluster.Act)
  /-- The follower asks for the next events. -/
  | poll (limit : Int)

/-- The follower is given events, and goes on behind the last of them. -/
def give (page : List Update) (f : Follower) : Follower :=
  { f with
    cursor := (page.getLast?.map Update.eventId).getD f.cursor
    received := f.received ++ page }

/-- Lets something happen; the follower asks the node in the place `reader`. -/
def act (reader : Nat) : Act → StateM Follower Cluster.Reply
  | .happen a => fun f =>
    let r := Cluster.act a f.cluster
    (r.1, { f with cluster := r.2 })
  | .poll limit => fun f =>
    let r := Cluster.act (.replay reader f.cursor limit) f.cluster
    match r.1 with
    | .replayed (.ok page) => (r.1, give page { f with cluster := r.2 })
    | reply => (reply, { f with cluster := r.2 })

/-- The announcements that were committed before the follower had gone past their numbers. -/
def committedAhead (turns : List (Turn Act Cluster.Reply Follower)) : List Update :=
  turns.filterMap fun t => t.reply.committed?.filter fun u => t.before.cursor < u.eventId

/-- A follower that has asked for nothing yet, on a database that has configurations and no
events. -/
def start (regime : Regime) (poolSize : Nat) (configs : List ConfigRow)
    (members : List (String × Broadcast)) : Follower where
  cluster := .ofMembers { Server.empty regime with tables := ⟨configs, []⟩ } poolSize members
  cursor := 0
  received := []

variable {reader : Nat} {configs : List ConfigRow} {updates ahead : List Update} {f : Follower}

/-- What a follower has been given, when some announcements were committed, some of them ahead
of it. -/
structure Caught (reader : Nat) (configs : List ConfigRow) (updates ahead : List Update)
    (f : Follower) : Prop where
  /-- The announcements that are on their way are sound. -/
  sound : f.cluster.Sound
  /-- All events have numbers of their own. -/
  counted : f.cluster.Counted
  /-- The node that is asked sees what is committed. -/
  calm : f.cluster.Calm reader
  /-- The events are those of the announcements, in the order in which they were committed. -/
  tables : f.cluster.server.tables = ⟨configs, updates.map rowOf⟩
  /-- Their configurations are there. -/
  known : ∀ u ∈ updates, ∃ row ∈ configs, row.name = u.name
  /-- The follower has come to one of them, if to any. -/
  reached : f.cursor = 0 ∨ ∃ u ∈ updates, u.eventId = f.cursor
  /-- What lies ahead of it was committed ahead of it. -/
  later : updates.filter (fun u => f.cursor < u.eventId) =
    ahead.filter fun u => f.cursor < u.eventId
  /-- Of what was committed ahead of it, it was given what now lies behind it. -/
  received : f.received.Perm
    ((ahead.filter fun u => u.eventId ≤ f.cursor).map (Tables.retold ⟨configs, []⟩))

/-- The events have different numbers. -/
theorem Caught.distinct (h : Caught reader configs updates ahead f) :
  (updates.map Update.eventId).Nodup
  := by
  have hn := (List.nodup_append.mp h.counted.numbered.distinct).1
  rw [h.tables, Tables.numbers, List.map_map] at hn
  apply List.Nodup.of_map (fun n : Nat => (n : Int))
  rw [List.map_map]
  apply hn

/-- The events are told in the order of their numbers. -/
theorem Caught.told (h : Caught reader configs updates ahead f) (after limit : Nat) :
  f.cluster.server.tables.told after limit =
    .ok ((((inOrder updates).filter fun u => after < u.eventId).take limit).map
      f.cluster.server.tables.retold)
  := by
  apply Tables.told_eq
  · rw [h.tables]
  · rw [h.tables]
    apply h.known

/-- What is committed is recorded behind the other events. -/
theorem Caught.recorded (h : Caught reader configs updates ahead f) {a : Cluster.Act} :
  (Cluster.act a f.cluster).2.server.tables =
    ⟨configs, (updates ++ (Cluster.act a f.cluster).1.committed?.toList).map rowOf⟩
  := by
  have hc := Cluster.change_act h.sound a
  rw [hc.recorded]
  cases hu : (Cluster.act a f.cluster).1.committed? with
  | none =>
      rw [Option.toList_none, List.append_nil]
      apply h.tables
  | some u =>
      apply (Tables.putEvent_of_notMem (hc.known hu).1).trans
      rw [h.tables, Option.toList_some, List.map_append]
      rfl

/-- What happens in the cluster gives the follower nothing. -/
theorem Caught.happen (h : Caught reader configs updates ahead f) (a : Cluster.Act)
    (patient : ∀ t c, a = .call reader t c → t.cancelAt ≠ some .begin) :
  Caught reader configs (updates ++ (Cluster.act a f.cluster).1.committed?.toList)
    (ahead ++ ((Cluster.act a f.cluster).1.committed?.filter fun u =>
      f.cursor < u.eventId).toList)
    { f with cluster := (Cluster.act a f.cluster).2 }
  := by
  rw [Option.toList_filter]
  constructor
  · apply Cluster.sound_act h.sound
  · apply Cluster.counted_act h.sound h.counted
  · apply Cluster.calm_act h.sound h.calm a patient
  · apply h.recorded
  · intro v hv
    obtain hv | hv := List.mem_append.mp hv
    · apply h.known v hv
    · have hknown := ((Cluster.change_act h.sound a).known (Option.mem_toList.mp hv)).2
      rw [h.tables] at hknown
      apply hknown
  · obtain hzero | ⟨v, hv, hcursor⟩ := h.reached
    · left
      apply hzero
    · right
      exact ⟨v, List.mem_append_left _ hv, hcursor⟩
  · dsimp only
    rw [List.filter_append, List.filter_append, h.later, List.filter_filter]
    simp only [Bool.and_self]
  · dsimp only
    rw [List.filter_append, filter_behind, List.append_nil]
    apply h.received

/-- A follower that is given what comes next goes on behind it. -/
theorem Caught.give (h : Caught reader configs updates ahead f) {cluster : Cluster} {m : Nat}
    (sound : cluster.Sound) (counted : cluster.Counted) (calm : cluster.Calm reader)
    (tables : cluster.server.tables = f.cluster.server.tables) :
  Caught reader configs updates ahead
    (give ((((inOrder updates).filter fun u => f.cursor < u.eventId).take m).map
      f.cluster.server.tables.retold) { f with cluster })
  := by
  generalize hl : (inOrder updates).filter (fun u => f.cursor < u.eventId) = l
  have hpair : l.Pairwise fun u v => u.eventId < v.eventId := by
    rw [← hl]
    apply (inOrder_pairwise h.distinct).filter
  have hperm : l.Perm (ahead.filter fun u => f.cursor < u.eventId) := by
    rw [← hl, ← h.later]
    apply (inOrder_perm updates).filter
  have hretold : f.cluster.server.tables.retold = Tables.retold ⟨configs, []⟩ := by
    rw [h.tables]
    rfl
  cases hlast : (l.take m).getLast? with
  | none =>
      rw [List.getLast?_eq_none_iff.mp hlast, List.map_nil, Follower.give, List.append_nil]
      exact ⟨sound, counted, calm, tables.trans h.tables, h.known, h.reached, h.later, h.received⟩
  | some u =>
      have hmem : u ∈ l := List.mem_of_mem_take (List.mem_of_getLast? hlast)
      have hle : f.cursor ≤ u.eventId := by
        rw [← hl] at hmem
        apply Nat.le_of_lt (of_decide_eq_true (List.mem_filter.mp hmem).2)
      rw [Follower.give, List.getLast?_map, hlast, Option.map_some, Option.map_some,
        Option.getD_some, eventId_retold]
      constructor
      · apply sound
      · apply counted
      · apply calm
      · apply tables.trans h.tables
      · apply h.known
      · right
        use u
        rw [← hl] at hmem
        exact ⟨(inOrder_perm updates).mem_iff.mp (List.mem_of_mem_filter hmem), rfl⟩
      · dsimp only
        rw [filter_later updates hle, filter_later ahead hle, h.later]
      · dsimp only
        rw [hretold, ← filter_getLast hpair hlast]
        apply (h.received.append ((hperm.filter _).map _)).trans
        rw [← List.map_append]
        apply (filter_split ahead hle).map

/-- Asking for events keeps what a follower has been given. -/
theorem Caught.poll (h : Caught reader configs updates ahead f) (limit : Int) :
  Caught reader configs updates ahead (act reader (.poll limit) f).2
  := by
  have hsound := Cluster.sound_act h.sound (.replay reader f.cursor limit)
  have hcounted := Cluster.counted_act h.sound h.counted (.replay reader f.cursor limit)
  have hcalm := Cluster.calm_act h.sound h.calm (.replay reader f.cursor limit)
    (by rintro t c ⟨⟩)
  have htables := (Cluster.server_act f.cluster (a := .replay reader f.cursor limit)
    (by rintro _ _ _ ⟨⟩) (by rintro _ ⟨⟩)).1
  have hreply := h.calm.replayed f.cursor limit
  rw [h.told] at hreply
  simp only [act]
  generalize Cluster.act (.replay reader f.cursor limit) f.cluster = r at *
  obtain ⟨e, hr⟩ | hr := hreply
  · rw [hr]
    exact { h with
      sound := hsound
      counted := hcounted
      calm := hcalm
      tables := htables.trans h.tables }
  · rw [hr]
    apply h.give hsound hcounted hcalm htables

/-- What a follower was given was committed ahead of it. -/
theorem Caught.ahead_of_received (h : Caught reader configs updates ahead f) {id : Nat}
    (hid : id ∈ f.received.map Update.eventId) :
  id ∈ ahead.map Update.eventId
  := by
  obtain ⟨v, hv, rfl⟩ := List.mem_map.mp ((h.received.map Update.eventId).mem_iff.mp hid)
  obtain ⟨u, hu, rfl⟩ := List.mem_map.mp hv
  rw [eventId_retold]
  apply List.mem_map_of_mem (List.mem_of_mem_filter hu)

/-- Asking for events commits nothing. -/
theorem committed?_poll (h : Caught reader configs updates ahead f) (limit : Int) :
  (act reader (.poll limit) f).1.committed? = none
  := by
  have hc := Cluster.change_act h.sound (.replay reader f.cursor limit)
  have hreply : (act reader (.poll limit) f).1 =
      (Cluster.act (.replay reader f.cursor limit) f.cluster).1 := by
    simp only [act]
    split <;> rfl
  rw [hreply]
  apply Option.eq_none_iff_forall_ne_some.mpr
  intro u hu
  obtain ⟨i, ⟨⟩⟩ := hc.of_committed hu

/-- One call more adds what it committed ahead of the follower. -/
theorem committedAhead_concat (turns : List (Turn Act Cluster.Reply Follower))
    (t : Turn Act Cluster.Reply Follower) :
  committedAhead (turns ++ [t]) = committedAhead turns ++
    (t.reply.committed?.filter fun u => t.before.cursor < u.eventId).toList
  := by
  rw [committedAhead, List.filterMap_append, committedAhead, List.filterMap_cons,
    List.filterMap_nil]
  cases t.reply.committed?.filter fun u => t.before.cursor < u.eventId <;> rfl

/-- At first nothing was committed and nothing was given. -/
theorem caught_start {members : List (String × Broadcast)} (regime : Regime) (poolSize : Nat)
    (configs : List ConfigRow) (there : reader < members.length) :
  Caught reader configs [] [] (start regime poolSize configs members)
  := by
  constructor
  · intro s hs
    cases hs
  · constructor
    · apply Int.one_pos
    · constructor
      · apply List.nodup_nil
      · intro id hid
        cases hid
  · constructor
    · use Node.listening poolSize members[reader].1 members[reader].2
      constructor
      · rw [start, Cluster.ofMembers, List.getElem?_map, List.getElem?_eq_getElem there]
        rfl
      · constructor
        · rfl
        · intro p hp
          apply List.eq_of_mem_replicate hp
    · intro s hs
      cases hs
  · rfl
  · intro u hu
    cases hu
  · left
    rfl
  · rfl
  · apply List.Perm.refl

/-- What is committed behind all others in the order of the numbers is committed ahead of the
follower. -/
theorem Caught.ahead_of_last {u : Update} (h : Caught reader configs updates ahead f)
    (hpos : 0 < u.eventId) (hlast : ∀ v ∈ updates, v.eventId < u.eventId) :
  f.cursor < u.eventId
  := by
  obtain hzero | ⟨v, hv, hcursor⟩ := h.reached
  · omega
  · rw [← hcursor]
    apply hlast v hv

/-- Throughout a run, a follower has been given what was committed ahead of it and now lies
behind it; this is everything if events are committed in the order of their numbers. -/
theorem caught_run {members : List (String × Broadcast)} {acts : List Act} (regime : Regime)
    (poolSize : Nat) (configs : List ConfigRow) (there : reader < members.length)
    (patient : ∀ t c, .happen (.call reader t c) ∈ acts → t.cancelAt ≠ some .begin) :
  let turns := history (act reader) (start regime poolSize configs members) acts
  Caught reader configs (Cluster.committed turns) (committedAhead turns)
      (reached (act reader) (start regime poolSize configs members) acts) ∧
    ((Cluster.committed turns).Pairwise (fun u v => u.eventId < v.eventId) →
      committedAhead turns = Cluster.committed turns)
  := by
  intro turns
  apply run_keeps (P := fun turns f =>
    Caught reader configs (Cluster.committed turns) (committedAhead turns) f ∧
      ((Cluster.committed turns).Pairwise (fun u v => u.eventId < v.eventId) →
        committedAhead turns = Cluster.committed turns))
  · use caught_start regime poolSize configs there
    intro _
    rfl
  · rintro a ha turns f ⟨h, hordered⟩
    rw [Cluster.committed_concat, committedAhead_concat]
    cases a with
    | happen a =>
        have hreply : (act reader (.happen a) f).1 = (Cluster.act a f.cluster).1 := rfl
        have hcaught := h.happen a (by
          rintro t c rfl
          apply patient t c ha)
        use hcaught
        dsimp only
        rw [hreply]
        cases hu : (Cluster.act a f.cluster).1.committed? with
        | none =>
            rw [Option.filter_none, Option.toList_none, List.append_nil, List.append_nil]
            apply hordered
        | some u =>
            intro hpair
            rw [Option.toList_some] at hpair ⊢
            obtain ⟨hpair, -, hlast⟩ := List.pairwise_append.mp hpair
            have hahead : f.cursor < u.eventId := by
              apply h.ahead_of_last (h.counted.of_committed h.sound hu)
              intro v hv
              apply hlast v hv u (List.mem_singleton_self u)
            rw [hordered hpair, Option.filter_some, if_pos (decide_eq_true hahead),
              Option.toList_some]
    | poll limit =>
        have hcaught := h.poll limit
        dsimp only
        rw [committed?_poll h limit, Option.filter_none, Option.toList_none, List.append_nil,
          List.append_nil]
        exact ⟨hcaught, hordered⟩

/-- What was committed ahead of a follower was committed. -/
theorem committedAhead_sublist (turns : List (Turn Act Cluster.Reply Follower)) :
  (committedAhead turns).Sublist (Cluster.committed turns)
  := by
  induction turns using List.reverseRecOn with
  | nil => apply List.Sublist.refl
  | append_singleton turns t ih =>
      rw [committedAhead_concat, Cluster.committed_concat, Option.toList_filter]
      apply ih.append
      apply List.filter_sublist

/-- A follower that was given all that lies ahead of it was given all that was committed ahead
of it. -/
theorem Caught.all (h : Caught reader configs updates ahead f)
    (hnone : (updates.filter fun u => f.cursor < u.eventId) = []) :
  f.received.Perm (ahead.map f.cluster.server.tables.retold)
  := by
  have hbehind : (ahead.filter fun u => u.eventId ≤ f.cursor) = ahead := by
    rw [h.later] at hnone
    apply List.filter_eq_self.mpr
    intro u hu
    have hle := List.filter_eq_nil_iff.mp hnone u hu
    simpa using hle
  have hreceived := h.received
  rw [hbehind] at hreceived
  rw [h.tables]
  apply hreceived

/-- Announcements are told with their numbers. -/
theorem eventId_comp_retold (t : Tables) :
  Update.eventId ∘ t.retold = Update.eventId
  := by
  funext u
  apply eventId_retold

/-- A follower that is given events goes on behind the last of them. -/
theorem cursor_give (t : Tables) (l : List Update) (f : Follower) :
  (give (l.map t.retold) f).cursor = (l.getLast?.map Update.eventId).getD f.cursor
  := by
  rw [Follower.give, List.getLast?_map, Option.map_map, eventId_comp_retold]

/-- Of announcements with different numbers, none is behind the last of those that lie behind a
number. -/
theorem le_getLast_inOrder (distinct : (updates.map Update.eventId).Nodup) (c : Nat) {v : Update}
    (hv : v ∈ updates) :
  v.eventId ≤
    ((((inOrder updates).filter fun u => c < u.eventId).getLast?).map Update.eventId).getD c
  := by
  generalize hl : (inOrder updates).filter (fun u => c < u.eventId) = l
  have hpair : l.Pairwise fun u v => u.eventId < v.eventId := by
    rw [← hl]
    apply (inOrder_pairwise distinct).filter
  have hmem : v ∈ l ↔ c < v.eventId := by
    rw [← hl, List.mem_filter, (inOrder_perm updates).mem_iff, decide_eq_true_iff,
      and_iff_right hv]
  cases hlast : l.getLast? with
  | none =>
      rw [List.getLast?_eq_none_iff.mp hlast, List.mem_nil_iff, false_iff] at hmem
      apply Nat.le_of_not_lt hmem
  | some u =>
      rw [Option.map_some, Option.getD_some]
      by_cases hahead : c < v.eventId
      · apply le_getLast hpair hlast (hmem.mpr hahead)
      · have hu := List.mem_of_getLast? hlast
        rw [← hl] at hu
        have hlt := of_decide_eq_true (List.mem_filter.mp hu).2
        omega

/-- After a poll for enough events that the database answers, nothing lies ahead. -/
theorem Caught.nothing_ahead {limit : Int} (h : Caught reader configs updates ahead f)
    (hcursor : f.cursor < 0x8000000000000000) (hlimit : 0 ≤ limit)
    (large : updates.length ≤ limit.toNat)
    (intact : ∀ fault ∈ f.cluster.server.faults, fault.kind ≠ .replay) :
  (updates.filter fun u => (act reader (.poll limit) f).2.cursor < u.eventId) = []
  := by
  have hlength : ((inOrder updates).filter fun u => f.cursor < u.eventId).length ≤
      limit.toNat := by
    apply Nat.le_trans (List.length_filter_le _ _)
    rw [(inOrder_perm updates).length_eq]
    apply large
  have hreply := h.calm.replayed_eq hcursor hlimit intact
  rw [h.told, List.take_of_length_le hlength] at hreply
  apply List.filter_eq_nil_iff.mpr
  intro v hv
  simp only [act, hreply, cursor_give]
  have hle := le_getLast_inOrder h.distinct f.cursor hv
  simpa using hle

/-- A follower starts before the first event and asks a node for events now and then, while
announcements go on in the cluster statement by statement in any order; callers of that node
do not give up while a transaction is being begun.  In whatever state they are, if the follower
asks once more, for enough events, and the database does not fail, then it has been given what
was committed before it had gone past its number, each announcement once, as the tables tell it.
This is everything if events are committed in the order of their numbers.  So it is however the
database runs transactions. -/
theorem received_of_poll (regime : Regime) (poolSize : Nat) (configs : List ConfigRow)
    (members : List (String × Broadcast)) (reader : Nat) (acts : List Act) (limit : Int)
    (there : reader < members.length)
    (patient : ∀ t c, .happen (.call reader t c) ∈ acts → t.cancelAt ≠ some .begin)
    (numbers : ∀ u ∈ Cluster.committed (history (act reader)
      (start regime poolSize configs members) acts), u.eventId < 0x8000000000000000)
    (large : (Cluster.committed (history (act reader)
      (start regime poolSize configs members) acts)).length ≤ limit)
    (intact : ∀ fault ∈ (reached (act reader)
      (start regime poolSize configs members) acts).cluster.server.faults, fault.kind ≠ .replay) :
  let before := start regime poolSize configs members
  let turns := history (act reader) before acts
  let f := (act reader (.poll limit) (reached (act reader) before acts)).2
  f.cluster.server.tables.events = (Cluster.committed turns).map rowOf ∧
    f.received.Perm ((committedAhead turns).map f.cluster.server.tables.retold) ∧
    (f.received.map Update.eventId).Nodup ∧
    ((Cluster.committed turns).Pairwise (fun u v => u.eventId < v.eventId) →
      committedAhead turns = Cluster.committed turns)
  := by
  obtain ⟨h, hordered⟩ := caught_run regime poolSize configs there patient
  intro before turns f
  have hf : Caught reader configs (Cluster.committed turns) (committedAhead turns) f :=
    h.poll limit
  have hall : f.received.Perm ((committedAhead turns).map f.cluster.server.tables.retold) := by
    apply hf.all
    apply h.nothing_ahead _ (by omega) (by omega) intact
    obtain hzero | ⟨u, hu, hcursor⟩ := h.reached
    · omega
    · rw [← hcursor]
      apply numbers u hu
  use by rw [hf.tables], hall
  constructor
  · apply (hall.map Update.eventId).nodup_iff.mpr
    rw [List.map_map, eventId_comp_retold]
    apply hf.distinct.sublist ((committedAhead_sublist turns).map _)
  · apply hordered

/-- A follower of a cluster of one node, on a database that holds one configuration. -/
def lone : Follower := start .reading 5 [.ofConfig bareConfig] [("a", .ofCapacity 1)]

/-- The node announces the configuration once.  The follower asks before the event is
committed. -/
def untroubled : List Act :=
  [.happen (.call 0 .live bareConfig), .happen (.proceed 0), .happen (.proceed 0), .poll 10,
    .happen (.proceed 0), .happen (.proceed 0)]

/-- The follower is given the announcement when it asks again. -/
theorem received_of_untroubled :
  (act 0 (.poll 1) (reached (act 0) lone untroubled)).2.received.map Update.eventId = [1]
  := by
  have hrun : (Cluster.committed (history (act 0) lone untroubled)).map Update.eventId =
      [1] ∧
    (reached (act 0) lone untroubled).cluster.server.faults = [] := by
    decide +kernel
  obtain ⟨hcommitted, hfaults⟩ := hrun
  rw [lone] at hcommitted hfaults ⊢
  have hnumber : ∀ u ∈ Cluster.committed (history (act 0)
      (start .reading 5 [.ofConfig bareConfig] [("a", .ofCapacity 1)]) untroubled),
      u.eventId = 1 := by
    intro u hu
    have hmem := List.mem_map_of_mem (f := Update.eventId) hu
    rw [hcommitted] at hmem
    apply List.mem_singleton.mp hmem
  have hlength := congrArg List.length hcommitted
  rw [List.length_map] at hlength
  obtain ⟨-, hperm, -, hall⟩ := received_of_poll .reading 5 [.ofConfig bareConfig]
    [("a", .ofCapacity 1)] 0 untroubled 1 (by decide)
    (by
      intro t c hc
      obtain ⟨rfl, rfl⟩ : t = .live ∧ c = bareConfig := by simpa [untroubled] using hc
      decide)
    (by
      intro u hu
      rw [hnumber u hu]
      decide)
    (by
      rw [hlength]
      decide)
    (by
      rw [hfaults]
      intro fault hf
      cases hf)
  rw [hall] at hperm
  · apply List.perm_singleton.mp
    have hids := hperm.map Update.eventId
    rw [List.map_map, eventId_comp_retold, hcommitted] at hids
    apply hids
  · apply List.pairwise_map.mp
    rw [hcommitted]
    apply List.pairwise_singleton

/-- Two announcements are recorded one after the other, and the second is committed first.  The
follower asks before the first is committed. -/
def overtaken : List Act :=
  [.happen (.call 0 .live bareConfig), .happen (.call 0 .live bareConfig),
    .happen (.proceed 0), .happen (.proceed 0), .happen (.proceed 1), .happen (.proceed 1),
    .happen (.proceed 1), .happen (.proceed 1), .poll 10, .happen (.proceed 0),
    .happen (.proceed 0)]

/-- When both are committed and no other announcement is on its way, the follower asks again and
is still not given the first. -/
theorem poll_passes_over :
  (Cluster.committed (history (act 0) lone overtaken)).map Update.eventId = [2, 1] ∧
    (reached (act 0) lone overtaken).cluster.sendings.length = 0 ∧
    1 ∉ (act 0 (.poll 10) (reached (act 0) lone overtaken)).2.received.map Update.eventId
  := by
  have hrun :
      (Cluster.committed (history (act 0) lone overtaken)).map Update.eventId = [2, 1] ∧
      (reached (act 0) lone overtaken).cluster.sendings.length = 0 ∧
      (committedAhead (history (act 0) lone overtaken)).map Update.eventId = [2] := by
    decide +kernel
  obtain ⟨hcommitted, hsendings, hahead⟩ := hrun
  use hcommitted, hsendings
  obtain ⟨hcaught, -⟩ : Caught 0 _ _ _ (reached (act 0) lone overtaken) ∧ _ :=
    caught_run .reading 5 [.ofConfig bareConfig] (by decide) (by
      intro t c hc
      obtain ⟨rfl, rfl⟩ : t = .live ∧ c = bareConfig := by simpa [overtaken] using hc
      decide)
  intro hmem
  have h := (hcaught.poll 10).ahead_of_received hmem
  rw [lone] at hahead
  rw [hahead] at h
  cases List.mem_singleton.mp h

end Follower

end ApiIntake.Database
