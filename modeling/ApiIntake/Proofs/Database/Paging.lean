import ApiIntake.Proofs.Database.CatchUp
import Mathlib.Data.List.Sort

/-!
# Paging

Recorded events are read page by page: each page is asked for behind the last event of the page
before it, until one is empty (`Node.ReadsOut`).  With limits of at least one this comes to an
end, and the pages hold the events behind the first number, each once and in the order of their
numbers (`Node.pages_exact`).  Nothing is lost between two pages: what lies behind a number are
the events of a page and those behind the last of them (`Tables.Recorded.behind_split`).
-/

namespace ApiIntake.Database

open ApiIntake.Feed (Update Broadcast)

/-! ### What lies behind a number -/

/-- Announcements in the order of their numbers are those up to a number and then those behind
it. -/
theorem filter_append_filter {l : List Update} (h : l.Pairwise fun u v => u.eventId < v.eventId)
    (c : Nat) :
  (l.filter fun u => u.eventId ≤ c) ++ (l.filter fun u => c < u.eventId) = l
  := by
  induction l with
  | nil => rfl
  | cons u rest ih =>
      obtain ⟨hu, hrest⟩ := List.pairwise_cons.mp h
      by_cases hle : u.eventId ≤ c
      · rw [List.filter_cons_of_pos (by simpa using hle),
          List.filter_cons_of_neg (by simpa using hle), List.cons_append, ih hrest]
      · have hlow : (rest.filter fun v => v.eventId ≤ c) = [] := by
          apply List.filter_eq_nil_iff.mpr
          intro v hv
          have hlt := hu v hv
          simp only [decide_eq_true_eq]
          omega
        have hhigh : (rest.filter fun v => c < v.eventId) = rest := by
          apply List.filter_eq_self.mpr
          intro v hv
          have hlt := hu v hv
          simp only [decide_eq_true_eq]
          omega
        rw [List.filter_cons_of_neg (by simpa using hle),
          List.filter_cons_of_pos (by simpa using hle), hlow, hhigh, List.nil_append]

/-- What an event says by itself, without the tenant and the prefix of its configuration. -/
def EventRow.bare (e : EventRow) : Update := ⟨e.name, "", "", e.hash, e.id.toNat⟩

namespace Tables

variable {t : Tables} {after : Nat} {u : Update} {e : EventRow} {row : ConfigRow}

/-- Recorded events have numbers of their own, from one up to the greatest signed number of 64
bits, in any order and with gaps, and their configurations are there. -/
structure Recorded (t : Tables) : Prop where
  /-- The numbers are positive and not too large, each once. -/
  numbered : Numbered 0x8000000000000000 t.numbers
  /-- The configurations are there. -/
  known : ∀ e ∈ t.events, ∃ row ∈ t.configs, row.name = e.name

/-- The number of a recorded event is positive and not too large. -/
theorem Recorded.bounded (h : t.Recorded) (he : e ∈ t.events) :
  0 < e.id ∧ e.id < 0x8000000000000000
  := h.numbered.bounded e.id (List.mem_map_of_mem he)

/-- The announcements of the events behind a number, in the order of their numbers. -/
def behind (t : Tables) (after : Nat) : List Update :=
  ((inOrder (t.events.map EventRow.bare)).filter fun u => after < u.eventId).map t.retold

/-- An event is told with the tenant and the prefix of its configuration. -/
theorem retold_bare (h : t.config? e.name = some row) :
  t.retold e.bare = ⟨e.name, row.tenant, row.pathPrefix, e.hash, e.id.toNat⟩
  := by
  simp only [retold, EventRow.bare, h]

/-- What lies behind a number has greater numbers. -/
theorem lt_eventId_of_mem_behind (h : u ∈ t.behind after) :
  after < u.eventId
  := by
  obtain ⟨v, hv, rfl⟩ := List.mem_map.mp h
  rw [eventId_retold]
  exact of_decide_eq_true (List.mem_filter.mp hv).2

/-- What lies behind a number lies behind a lower one, behind that number. -/
theorem behind_eq_filter {after' : Nat} (hle : after ≤ after') :
  t.behind after' = (t.behind after).filter fun u => after' < u.eventId
  := by
  rw [behind, behind, filter_later _ hle, List.filter_map]
  congr 1
  apply List.filter_congr
  intro u _
  rw [Function.comp_apply, eventId_retold]

/-- Events are those that their announcements record. -/
theorem Recorded.events_eq (h : t.Recorded) :
  t.events = (t.events.map EventRow.bare).map rowOf
  := by
  rw [List.map_map]
  nth_rewrite 1 [← List.map_id t.events]
  apply List.map_congr_left
  intro e he
  have hid : (e.id.toNat : Int) = e.id := Int.toNat_of_nonneg (Int.le_of_lt (h.bounded he).1)
  rw [Function.comp_apply, rowOf, EventRow.bare, hid]
  rfl

/-- The announcements have different numbers. -/
theorem Recorded.distinct (h : t.Recorded) :
  ((t.events.map EventRow.bare).map Update.eventId).Nodup
  := by
  have hn := h.numbered.distinct
  rw [numbers, h.events_eq, List.map_map] at hn
  apply List.Nodup.of_map (fun n : Nat => (n : Int))
  rw [List.map_map]
  apply hn

/-- What is told of the events behind a number are the first of their announcements. -/
theorem Recorded.told_eq_take (h : t.Recorded) (after limit : Nat) :
  t.told after limit = .ok ((t.behind after).take limit)
  := by
  rw [behind, ← List.map_take]
  apply told_eq h.events_eq
  intro u hu
  obtain ⟨e, he, rfl⟩ := List.mem_map.mp hu
  apply h.known e he

/-- The numbers of what lies behind a number ascend. -/
theorem Recorded.behind_pairwise (h : t.Recorded) (after : Nat) :
  (t.behind after).Pairwise fun u v => u.eventId < v.eventId
  := by
  apply List.pairwise_map.mpr
  apply ((inOrder_pairwise h.distinct).filter _).imp
  intro u v huv
  rw [eventId_retold, eventId_retold]
  apply huv

/-- What lies behind a number are the announcements of the events with greater numbers. -/
theorem Recorded.mem_behind_iff (h : t.Recorded) :
  u ∈ t.behind after ↔ ∃ e ∈ t.events, (after : Int) < e.id ∧
    ∃ row, t.config? e.name = some row ∧
      u = ⟨e.name, row.tenant, row.pathPrefix, e.hash, e.id.toNat⟩
  := by
  constructor
  · intro hu
    obtain ⟨v, hv, rfl⟩ := List.mem_map.mp hu
    obtain ⟨hv, hlt⟩ := List.mem_filter.mp hv
    obtain ⟨e, he, rfl⟩ := List.mem_map.mp ((inOrder_perm _).mem_iff.mp hv)
    obtain ⟨row, hrow⟩ := exists_config? (h.known e he)
    have hlt : after < e.id.toNat := of_decide_eq_true hlt
    exact ⟨e, he, by omega, row, hrow, retold_bare hrow⟩
  · rintro ⟨e, he, hlt, row, hrow, rfl⟩
    apply List.mem_map.mpr
    use e.bare
    constructor
    · apply List.mem_filter.mpr
      have hlt : after < e.id.toNat := by omega
      exact ⟨(inOrder_perm _).mem_iff.mpr (List.mem_map_of_mem he), decide_eq_true hlt⟩
    · apply retold_bare hrow

/-- What lies behind a number has no greater numbers than events have. -/
theorem Recorded.eventId_lt_of_mem_behind (h : t.Recorded) (hu : u ∈ t.behind after) :
  u.eventId < 0x8000000000000000
  := by
  obtain ⟨e, he, -, row, -, rfl⟩ := h.mem_behind_iff.mp hu
  have hlt := (h.bounded he).2
  dsimp only
  omega

/-- What lies behind a number are the events of a page and those behind the last of them. -/
theorem Recorded.behind_split (h : t.Recorded) {m : Nat}
    (hlast : ((t.behind after).take m).getLast? = some u) :
  (t.behind after).take m ++ t.behind u.eventId = t.behind after
  := by
  have hpair := h.behind_pairwise after
  have hlt := lt_eventId_of_mem_behind (List.mem_of_mem_take (List.mem_of_getLast? hlast))
  rw [behind_eq_filter (Nat.le_of_lt hlt), ← filter_getLast hpair hlast]
  apply filter_append_filter hpair

end Tables

/-! ### Pages -/

/-- No failure is taken where there is none of its kind. -/
theorem Server.takeFault_of_forall_ne {kind : StatementKind} {faults : List Fault}
    (h : ∀ fault ∈ faults, fault.kind ≠ kind) :
  takeFault kind faults = (none, faults)
  := by
  induction faults with
  | nil => rfl
  | cons fault rest ih =>
      obtain ⟨hfault, hrest⟩ := List.forall_mem_cons.mp h
      rw [takeFault, if_neg hfault, ih hrest]

namespace Node

variable {n n' : Node} {after : Nat} {limit : Int} {limits : Nat → Int} {pages : List (List Update)}

/-- A node that answers who reads events: its pool is open, the sessions of the pool see what is
committed, and no reading was told to fail. -/
structure Answering (n : Node) : Prop where
  /-- The pool is open. -/
  isOpen : n.isOpen = true
  /-- No session was left inside an aborted transaction. -/
  live : ∀ p ∈ n.idle, p.session.isAborted = false
  /-- The sessions see what is committed, as they do outside of transactions. -/
  sees : ∀ p ∈ n.idle, n.server.view p.session = n.server.tables
  /-- No reading was told to fail. -/
  intact : ∀ fault ∈ n.server.faults, fault.kind ≠ .replay

/-- A node behind a statement that changed nothing. -/
def queried (n : Node) (statement : Statement) : Node :=
  { n with
    server := { n.server with log := n.server.log ++ [statement] }
    idle := n.idle.tail ++ [n.next] }

/-- A clear node answers unless a reading was told to fail. -/
theorem Clear.answering (h : n.Clear) (intact : ∀ fault ∈ n.server.faults, fault.kind ≠ .replay) :
  n.Answering
  := by
  constructor
  · apply h.isOpen
  · intro p hp
    rw [h.idle p hp]
    rfl
  · intro p hp
    rw [h.idle p hp]
    rfl
  · apply intact

/-- The session that is used next sees what is committed. -/
theorem Answering.sees_next (h : n.Answering) :
  n.next.session.isAborted = false ∧ n.server.view n.next.session = n.server.tables
  := by
  obtain hp | hp := n.next_mem
  · exact ⟨h.live n.next hp, h.sees n.next hp⟩
  · rw [hp]
    exact ⟨rfl, rfl⟩

/-- A node goes on answering behind a statement that changed nothing. -/
theorem Answering.queried (h : n.Answering) (statement : Statement) :
  (n.queried statement).Answering
  := by
  obtain ⟨live, sees⟩ := h.sees_next
  constructor
  · apply h.isOpen
  · intro p hp
    obtain hp | hp := List.mem_append.mp hp
    · apply h.live p (List.mem_of_mem_tail hp)
    · rw [List.mem_singleton.mp hp]
      apply live
  · intro p hp
    obtain hp | hp := List.mem_append.mp hp
    · apply h.sees p (List.mem_of_mem_tail hp)
    · rw [List.mem_singleton.mp hp]
      apply sees
  · apply h.intact

/-- If nothing is told to fail, what is seen in a session is told in it. -/
theorem Tells.send_eq {statement : Statement} {answer : Tables → Except SqlError Answer}
    (ht : Tells statement answer) (intact : ∀ fault ∈ n.server.faults, fault.kind ≠ statement.kind)
    (p : Pooled) {a : Answer} (told : told n.server p answer = .ok a) :
  ∃ session, session.pooled = p ∧
    send .live p.session statement n =
      ((.answered a, session),
        { n with server := { n.server with log := n.server.log ++ [statement] } })
  := by
  obtain ⟨session, hsession, hperform⟩ :=
    ht.perform { n.server with log := n.server.log ++ [statement] } p
  have hlog : Node.told { n.server with log := n.server.log ++ [statement] } p answer = .ok a :=
    told
  rw [hlog] at hsession hperform
  have hrun : n.server.run p.session statement =
      (⟨.ok a, session, []⟩, { n.server with log := n.server.log ++ [statement] }) := by
    rw [Server.run, Server.takeFault_of_forall_ne intact]
    apply hperform
  have hreached : (Token.live.cancelAt = some statement.kind) = False := by simp [Token.live]
  use session, hsession
  simp only [send, hrun, hreached, decide_false, Bool.false_and, Bool.or_false, List.append_nil]
  rfl

/-- A query of what is seen answers what the session sees that is used next. -/
theorem Tells.query_eq_queried {statement : Statement} {answer : Tables → Except SqlError Answer}
    (ht : Tells statement answer) (isOpen : n.isOpen = true)
    (intact : ∀ fault ∈ n.server.faults, fault.kind ≠ statement.kind) {a : Answer}
    (told : told n.server n.next answer = .ok a) :
  Node.query statement n = (.ok a, n.queried statement)
  := by
  obtain ⟨session, hsession, hsend⟩ :=
    ht.send_eq (n := { n with idle := n.idle.tail }) intact n.next told
  rw [query_eq isOpen, hsend]
  dsimp only
  rw [hsession]
  rfl

/-- A node gives the first events behind a number. -/
theorem Answering.replay_eq (h : n.Answering) (recorded : n.server.tables.Recorded)
    (hafter : after < 0x8000000000000000) (hlimit : 0 ≤ limit) :
  replay after limit n =
    (.ok ((n.server.tables.behind after).take limit.toNat), n.queried (.replay after limit))
  := by
  obtain ⟨live, sees⟩ := h.sees_next
  have htold : told n.server n.next (fun t =>
      if limit < 0 then .error .negativeLimit
      else .ok (.events ((t.eventsAfter after).take limit.toNat))) =
      .ok (.events ((n.server.tables.eventsAfter after).take limit.toNat)) := by
    rw [told, live, sees, if_neg Bool.false_ne_true, if_neg (by omega)]
  have hquery := (tells_replay after limit).query_eq_queried h.isOpen h.intact htold
  rw [← recorded.told_eq_take, replay, if_neg (by omega)]
  simp only [bind_apply, hquery]
  rfl

/-- No number is asked for that is greater than those of events. -/
theorem replay_of_le (h : 0x8000000000000000 ≤ after) (limit : Int) (n : Node) :
  replay after limit n = (.error .afterOverflow, n)
  := by
  rw [replay, if_pos h]
  rfl

/-- Pages of events that a node gives one behind the other.  The first is asked for behind a
number, each other one behind the last event of the page before it, with the limits in turn.
When a page is empty no other is asked for. -/
inductive ReadsOut : (Nat → Int) → Nat → Node → List (List Update) → Node → Prop
  /-- The page is empty. -/
  | ends {limits : Nat → Int} {after : Nat} {n n' : Node}
    (empty : replay after (limits 0) n = (.ok [], n')) :
    ReadsOut limits after n [] n'
  /-- The page is not empty, and another one is asked for. -/
  | goesOn {limits : Nat → Int} {after : Nat} {n n' n'' : Node} {page : List Update} {u : Update}
    {pages : List (List Update)} (given : replay after (limits 0) n = (.ok page, n'))
    (last : page.getLast? = some u)
    (rest : ReadsOut (fun i => limits (i + 1)) u.eventId n' pages n'') :
    ReadsOut limits after n (page :: pages) n''

/-- A node that answers is read out in the end. -/
theorem Answering.exists_readsOut (h : n.Answering) (recorded : n.server.tables.Recorded)
    (hafter : after < 0x8000000000000000) (hlimits : ∀ i, 1 ≤ limits i) :
  ∃ pages n', ReadsOut limits after n pages n'
  := by
  -- each page that is not empty leaves less behind its last event
  generalize hk : (n.server.tables.behind after).length = k
  induction k using Nat.strongRecOn generalizing n after limits with
  | ind k ih =>
      have hgiven := h.replay_eq recorded hafter (Int.le_trans (by decide) (hlimits 0))
      cases hlast : ((n.server.tables.behind after).take (limits 0).toNat).getLast? with
      | none =>
          rw [List.getLast?_eq_none_iff.mp hlast] at hgiven
          exact ⟨[], _, .ends hgiven⟩
      | some u =>
          have hmem := List.mem_of_getLast? hlast
          have hsplit := congrArg List.length (recorded.behind_split hlast)
          have hpos := List.length_pos_of_mem hmem
          rw [List.length_append] at hsplit
          have hlt := recorded.eventId_lt_of_mem_behind (List.mem_of_mem_take hmem)
          obtain ⟨pages, n', hrest⟩ := ih (n.server.tables.behind u.eventId).length (by omega)
            (h.queried (.replay after (limits 0))) recorded hlt (fun i => hlimits (i + 1)) rfl
          exact ⟨_, n', .goesOn hgiven hlast hrest⟩

/-- The pages that a node gives hold what lies behind the first number. -/
theorem ReadsOut.flatten_eq (hr : ReadsOut limits after n pages n') (h : n.Answering)
    (recorded : n.server.tables.Recorded) (hafter : after < 0x8000000000000000)
    (hlimits : ∀ i, 1 ≤ limits i) :
  pages.flatten = n.server.tables.behind after
  := by
  induction hr with
  | @ends limits after n n' empty =>
      rw [h.replay_eq recorded hafter (Int.le_trans (by decide) (hlimits 0))] at empty
      obtain ⟨hpage, -⟩ := Prod.mk.inj empty
      have hpos := hlimits 0
      obtain hzero | hnil := List.take_eq_nil_iff.mp (Except.ok.inj hpage)
      · omega
      · rw [hnil, List.flatten_nil]
  | @goesOn limits after n n' n'' page u pages given last rest ih =>
      rw [h.replay_eq recorded hafter (Int.le_trans (by decide) (hlimits 0))] at given
      obtain ⟨hpage, rfl⟩ := Prod.mk.inj given
      obtain rfl := Except.ok.inj hpage
      have hmem := List.mem_of_mem_take (List.mem_of_getLast? last)
      have hlt := recorded.eventId_lt_of_mem_behind hmem
      rw [List.flatten_cons, ih (h.queried _) recorded hlt fun i => hlimits (i + 1)]
      apply recorded.behind_split last

/-- Whatever events are recorded, behind whatever number they are read and whatever limits of at
least one the pages have: the pages come to an end, and together they hold the announcements of
all events with greater numbers, each once and in the order of their numbers.  Behind a number
that no event can have nothing is read, and this is an error. -/
theorem pages_exact :
  (∀ (n : Node) (after : Nat) (limits : Nat → Int), n.Answering → n.server.tables.Recorded →
    after < 0x8000000000000000 → (∀ i, 1 ≤ limits i) →
    (∃ pages n', ReadsOut limits after n pages n') ∧
    ∀ pages n', ReadsOut limits after n pages n' →
      pages.flatten.Pairwise (fun u v => u.eventId < v.eventId) ∧
      ∀ u, u ∈ pages.flatten ↔ ∃ e ∈ n.server.tables.events, (after : Int) < e.id ∧
        ∃ row, n.server.tables.config? e.name = some row ∧
          u = ⟨e.name, row.tenant, row.pathPrefix, e.hash, e.id.toNat⟩) ∧
  ∀ (n : Node) (after : Nat) (limit : Int), 0x8000000000000000 ≤ after →
    replay after limit n = (.error .afterOverflow, n)
  := by
  constructor
  · intro n after limits answering recorded hafter hlimits
    use answering.exists_readsOut recorded hafter hlimits
    intro pages n' hr
    rw [hr.flatten_eq answering recorded hafter hlimits]
    use recorded.behind_pairwise after
    intro u
    apply recorded.mem_behind_iff
  · intro n after limit h
    apply replay_of_le h

/-- A node on a database with four events of one configuration, which were not recorded in the
order of their numbers. -/
def gapped : Node :=
  .ofServer
    { Server.empty .reading with
      tables := ⟨[.ofConfig bareConfig], [⟨9223372036854775807, bareConfig.name, "d"⟩,
        ⟨2, bareConfig.name, "a"⟩, ⟨7, bareConfig.name, "c"⟩, ⟨4, bareConfig.name, "b"⟩]⟩ }
    "a" (.ofCapacity 1) 5

/-- Behind the number two the pages of that node hold the other three events, also if there is
room for one event more on each page than on the one before. -/
theorem pages_exact_gapped :
  (∃ pages n', ReadsOut (fun i => i + 1) 2 gapped pages n' ∧
    pages.flatten.map Update.eventId = [4, 7, 9223372036854775807]) ∧
  replay 9223372036854775808 1 gapped = (.error .afterOverflow, gapped)
  := by
  obtain ⟨hexact, hoverflow⟩ := pages_exact
  have hclear : gapped.Clear := ⟨rfl, fun p hp => List.eq_of_mem_replicate hp⟩
  have hanswering : gapped.Answering := by
    apply hclear.answering
    intro fault hf
    cases hf
  have hrecorded : gapped.server.tables.Recorded := by
    constructor
    · constructor
      · decide +kernel
      · decide +kernel
    · intro e he
      use .ofConfig bareConfig, List.mem_cons_self
      simp only [gapped, ofServer, List.mem_cons, List.not_mem_nil, or_false] at he
      obtain rfl | rfl | rfl | rfl := he <;> rfl
  obtain ⟨⟨pages, n', hr⟩, hall⟩ :=
    hexact gapped 2 (fun i => i + 1) hanswering hrecorded (by decide) (by omega)
  obtain ⟨hpair, hmem⟩ := hall pages n' hr
  have hgiven : ∀ e ∈ gapped.server.tables.events, 2 < e.id →
      e.id.toNat ∈ pages.flatten.map Update.eventId := by
    intro e he hlt
    obtain ⟨row, hrow⟩ := exists_config? (hrecorded.known e he)
    exact List.mem_map_of_mem (f := Update.eventId) ((hmem _).mpr ⟨e, he, hlt, row, hrow, rfl⟩)
  constructor
  · use pages, n', hr
    apply List.Pairwise.eq_of_mem_iff (List.pairwise_map.mpr hpair) (by decide)
    intro id
    constructor
    · intro hid
      obtain ⟨u, hu, rfl⟩ := List.mem_map.mp hid
      obtain ⟨e, he, hlt, row, -, rfl⟩ := (hmem u).mp hu
      simp only [gapped, ofServer, List.mem_cons, List.not_mem_nil, or_false] at he
      obtain rfl | rfl | rfl | rfl := he
      · simp
      · cases hlt
      · simp
      · simp
    · intro hid
      simp only [List.mem_cons, List.not_mem_nil, or_false] at hid
      obtain rfl | rfl | rfl := hid
      · apply hgiven ⟨4, bareConfig.name, "b"⟩ (by simp [gapped, ofServer]) (by decide)
      · apply hgiven ⟨7, bareConfig.name, "c"⟩ (by simp [gapped, ofServer]) (by decide)
      · apply hgiven ⟨9223372036854775807, bareConfig.name, "d"⟩ (by simp [gapped, ofServer])
          (by decide)
  · apply hoverflow
    decide

end Node

end ApiIntake.Database
