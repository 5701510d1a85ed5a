import ApiIntake.Proofs.Database.Sending

/-!
# Recorded events read back

Reading recorded events changes no table and sends nothing (`Node.reads_replay`).  What is read
are the events of the tables as they are seen in the session that is used next.  A reading fails
only if the pool is closed, the database was told to fail, the numbers asked for are out of range,
or the session was left inside a transaction that was aborted (`Node.replay_eq`).
-/

namespace ApiIntake.Database

open ApiIntake.Feed (Update)

/-- The announcements of the events behind a number, at most so many. -/
def Tables.told (t : Tables) (after limit : Nat) : Except EventError (List Update) :=
  ((t.eventsAfter after).take limit).mapM fun r => Node.recordedUpdate r.1 r.2

/-- An announcement as it is told from the tables: with the tenant and the prefix of the
configuration. -/
def Tables.retold (t : Tables) (u : Update) : Update :=
  match t.config? u.name with
  | some row => { u with tenant := row.tenant, pathPrefix := row.pathPrefix }
  | none => u

/-- Announcements in the order of their numbers. -/
def inOrder (updates : List Update) : List Update :=
  updates.mergeSort fun u v => decide (u.eventId ≤ v.eventId)

/-! ### Telling -/

section

variable {t : Tables} {updates : List Update}

/-- The number of an announcement is told as it is. -/
theorem eventId_retold (t : Tables) (u : Update) :
  (t.retold u).eventId = u.eventId
  := by
  rw [Tables.retold]
  cases t.config? u.name <;> rfl

/-- Nothing is lost or added when announcements are put in order. -/
theorem inOrder_perm (updates : List Update) :
  (inOrder updates).Perm updates
  := by
  apply List.mergeSort_perm

/-- Announcements with numbers of their own are put in order strictly. -/
theorem inOrder_pairwise (h : (updates.map Update.eventId).Nodup) :
  (inOrder updates).Pairwise fun u v => u.eventId < v.eventId
  := by
  have hle : (inOrder updates).Pairwise fun u v => decide (u.eventId ≤ v.eventId) = true := by
    apply List.pairwise_mergeSort
    · intro u v w huv hvw
      exact decide_eq_true (Nat.le_trans (of_decide_eq_true huv) (of_decide_eq_true hvw))
    · intro u v
      simp [Nat.le_total]
  have hne : (inOrder updates).Pairwise fun u v => u.eventId ≠ v.eventId := by
    apply List.pairwise_map.mp
    apply ((inOrder_perm updates).map Update.eventId).nodup_iff.mpr h
  apply (hle.and hne).imp
  rintro u v ⟨huv, hne⟩
  exact Nat.lt_of_le_of_ne (of_decide_eq_true huv) hne

/-- A configuration that is there is found. -/
theorem exists_config? {name : String} (h : ∃ row ∈ t.configs, row.name = name) :
  ∃ row, t.config? name = some row
  := by
  apply Option.isSome_iff_exists.mp
  apply Tables.isSome_config?_iff.mpr h

/-- The events behind a number are those of the announcements behind it, in the order of their
numbers. -/
theorem eventsAfter_eq (recorded : t.events = updates.map rowOf) (after : Nat) :
  t.eventsAfter after =
    ((inOrder updates).filter fun u => after < u.eventId).filterMap
      fun u => (t.config? u.name).map (rowOf u, ·)
  := by
  have hsorted : t.sortedEvents = (inOrder updates).map rowOf := by
    rw [Tables.sortedEvents, recorded, inOrder, List.map_mergeSort]
    intro u _ v _
    simp [rowOf]
  rw [Tables.eventsAfter, hsorted, List.filterMap_map, List.filterMap_filter]
  apply List.filterMap_congr
  intro u _
  simp [rowOf]

/-- An event is told with the tenant and the prefix of its configuration. -/
theorem recordedUpdate_rowOf {u : Update} {row : ConfigRow} (h : t.config? u.name = some row) :
  Node.recordedUpdate (rowOf u) row = .ok (t.retold u)
  := by
  have hid : 0 ≤ (rowOf u).id := Int.natCast_nonneg u.eventId
  rw [Node.recordedUpdate, if_pos hid, Tables.retold, h]
  rfl

/-- Events whose configurations are there are told, up to a limit. -/
theorem mapM_recordedUpdate (known : ∀ u ∈ updates, ∃ row ∈ t.configs, row.name = u.name)
    (limit : Nat) :
  (((updates.filterMap fun u => (t.config? u.name).map (rowOf u, ·)).take limit).mapM
      fun r => Node.recordedUpdate r.1 r.2) =
    .ok ((updates.take limit).map t.retold)
  := by
  induction updates generalizing limit with
  | nil =>
      rw [List.filterMap_nil, List.take_nil, List.take_nil, List.mapM_nil]
      rfl
  | cons u rest ih =>
      obtain ⟨hu, hrest⟩ := List.forall_mem_cons.mp known
      obtain ⟨row, hrow⟩ := exists_config? hu
      rw [List.filterMap_cons, hrow, Option.map_some]
      cases limit with
      | zero =>
          rw [List.take_zero, List.take_zero, List.mapM_nil]
          rfl
      | succ limit =>
          rw [List.take_succ_cons, List.take_succ_cons, List.mapM_cons, recordedUpdate_rowOf hrow,
            ih hrest]
          rfl

/-- The events of announcements behind a number are told in the order of their numbers. -/
theorem Tables.told_eq (recorded : t.events = updates.map rowOf)
    (known : ∀ u ∈ updates, ∃ row ∈ t.configs, row.name = u.name) (after limit : Nat) :
  t.told after limit =
    .ok ((((inOrder updates).filter fun u => after < u.eventId).take limit).map t.retold)
  := by
  rw [told, eventsAfter_eq recorded]
  apply mapM_recordedUpdate
  intro u hu
  apply known u ((inOrder_perm updates).mem_iff.mp (List.mem_of_mem_filter hu))

end

/-! ### Reading -/

namespace Node

variable {n n' : Node} {after : Nat} {limit : Int} {statement : Statement}
  {answer : Tables → Except SqlError Answer}

/-- The session of the pool that is used next. -/
def next (n : Node) : Pooled := n.idle.headD .outside

/-- The session that is used next is one of the pool, or a new one. -/
theorem next_mem (n : Node) :
  n.next ∈ n.idle ∨ n.next = .outside
  := by
  rw [next]
  cases n.idle with
  | nil =>
      right
      rfl
  | cons p idle =>
      left
      apply List.mem_cons_self

/-- A session is taken from the pool or made, if the pool is open. -/
theorem acquire_eq (n : Node) :
  acquire n =
    if n.isOpen then (.ok n.next, { n with idle := n.idle.tail }) else (.error .closed, n)
  := by
  obtain ⟨server, idle, isOpen, gaveUp, id, feed, listeners, arrived, closing⟩ := n
  cases isOpen with
  | true => cases idle <;> rfl
  | false => rfl

/-- No statement is run if the pool is closed. -/
theorem query_of_closed (h : n.isOpen = false) (statement : Statement) :
  query statement n = (.error .closed, n)
  := by
  rw [query, bind_apply, acquire_eq, h]
  rfl

/-- A statement that only tells what its session sees. -/
structure Tells (statement : Statement) (answer : Tables → Except SqlError Answer) : Prop where
  /-- It changes nothing. -/
  execute : ∀ (s : Server) (session : Session),
    s.execute session statement =
      match answer (s.view session) with
      | .ok a => (⟨.ok a, session, []⟩, s)
      | .error e => s.fail session e
  /-- No transaction is over with it. -/
  commit : statement.kind ≠ .commit
  /-- Its answer is awaited. -/
  awaited : canAbandon statement.kind = false

/-- Recorded events are told, unless the limit is negative. -/
theorem tells_replay (after limit : Int) :
  Tells (.replay after limit) fun t =>
    if limit < 0 then .error .negativeLimit
    else .ok (.events ((t.eventsAfter after).take limit.toNat))
  := by
  constructor
  · intro s session
    rw [Server.execute]
    split <;> rfl
  · rintro ⟨⟩
  · rfl

/-- What is replied in a session to a statement that only tells what is seen there. -/
def told (s : Server) (p : Pooled) (answer : Tables → Except SqlError Answer) :
    Except SqlError Answer :=
  if p.session.isAborted then .error .inAborted else answer (s.view p.session)

/-- The session in which a statement only told what is seen there: a failure may have aborted its
transaction. -/
def behind (s : Server) (p : Pooled) : Except SqlError Answer → Pooled
  | .ok _ => p
  | .error _ => (s.behindFailure p.session).pooled

/-- In a session of the pool, a statement that only tells what is seen there changes nothing. -/
theorem Tells.perform (ht : Tells statement answer) (s : Server) (p : Pooled) :
  ∃ session, session.pooled = behind s p (told s p answer) ∧
    s.perform p.session statement = (⟨told s p answer, session, []⟩, s)
  := by
  rw [told]
  cases hp : p.session.isAborted with
  | true =>
      rw [Server.perform_of_aborted hp ht.commit, if_pos rfl]
      exact ⟨s.behindFailure p.session, rfl, rfl⟩
  | false =>
      rw [Server.perform_of_live hp, ht.execute, if_neg Bool.false_ne_true]
      cases answer (s.view p.session) with
      | ok a => exact ⟨p.session, p.pooled_session, rfl⟩
      | error e => exact ⟨s.behindFailure p.session, rfl, rfl⟩

/-- A query of an open pool runs its statement in the session that is used next. -/
theorem query_eq (h : n.isOpen = true) (statement : Statement) :
  query statement n =
    (let r := send .live n.next.session statement { n with idle := n.idle.tail }
    (match r.1.1 with
      | .answered answer => .ok answer
      | .failed e => .error (.database e)
      | .abandoned => .ok .done,
      { r.2 with idle := r.2.idle ++ [r.1.2.pooled] }))
  := by
  rw [query, bind_apply, acquire_eq, if_pos h]
  simp only [bind_apply]
  cases (send .live n.next.session statement { n with idle := n.idle.tail }).1.1 <;> rfl

/-- A query of what is seen answers what the session sees that is used next, unless the database
was told to fail. -/
theorem Tells.query (ht : Tells statement answer) (h : n.isOpen = true) :
  ∃ result server gaveUp,
    Node.query statement n =
      (result.mapError .database,
        { n with server, gaveUp, idle := n.idle.tail ++ [behind n.server n.next result] }) ∧
    server.tables = n.server.tables ∧ n.server.After server ∧
    ((∃ e, result = .error e) ∧ (∃ f ∈ n.server.faults, f.kind = statement.kind) ∨
      result = told n.server n.next answer)
  := by
  rw [query_eq h]
  have hs := sent_send .live n.next.session statement { n with idle := n.idle.tail }
  generalize send .live n.next.session statement { n with idle := n.idle.tail } = r at hs ⊢
  cases hs with
  | @refused reply server gaveUp fault cause tables after =>
      rw [if_neg ht.commit]
      obtain ⟨e, rfl⟩ | ⟨-, hcan⟩ := cause
      · exact ⟨.error e, server, gaveUp, rfl, tables, after, .inl ⟨⟨e, rfl⟩, fault⟩⟩
      · rw [ht.awaited] at hcan
        cases hcan
  | @done reply effect server log gaveUp done cause =>
      obtain ⟨session, hsession, hperform⟩ := ht.perform { n.server with log } n.next
      rw [hperform] at done
      cases done
      obtain rfl | ⟨-, ⟨⟩, -⟩ := cause
      rw [List.append_nil]
      dsimp only
      rw [hsession]
      have hlog : told { n.server with log } n.next answer = told n.server n.next answer := rfl
      rw [hlog]
      refine ⟨told n.server n.next answer, { n.server with log }, gaveUp, ?_, rfl,
        (Server.After.refl _).of_log, .inr rfl⟩
      cases told n.server n.next answer with
      | error e => rfl
      | ok a => rfl

/-- What comes of reading events back: it fails, or it tells what the session sees that is used
next; this is put back into the pool. -/
inductive Reads (n : Node) (after : Nat) (limit : Int) :
    Except EventError (List Update) × Node → Prop
  /-- Nothing is asked of the database. -/
  | refused {e : EventError} (cause : n.isOpen = false ∨ 0x8000000000000000 ≤ after) :
    Reads n after limit (.error e, n)
  /-- The database fails, as it was told to or because the transaction was aborted in which the
  session was left. -/
  | failed {e : SqlError} {server : Server} {gaveUp : Bool}
    (cause : limit < 0 ∨ (∃ f ∈ n.server.faults, f.kind = .replay) ∨
      n.next.session.isAborted = true ∧ e = .inAborted)
    (tables : server.tables = n.server.tables) (later : n.server.After server) :
    Reads n after limit
      (.error (.access "select config events" (.database e)),
        { n with
          server
          gaveUp
          idle := n.idle.tail ++ [(n.server.behindFailure n.next.session).pooled] })
  /-- The events are read. -/
  | told {server : Server} {gaveUp : Bool} (live : n.next.session.isAborted = false)
    (tables : server.tables = n.server.tables) (later : n.server.After server) :
    Reads n after limit
      ((n.server.view n.next.session).told after limit.toNat,
        { n with server, gaveUp, idle := n.idle.tail ++ [n.next] })

/-- Reading events back does one of these. -/
theorem reads_replay (n : Node) (after : Nat) (limit : Int) :
  Reads n after limit (replay after limit n)
  := by
  rw [replay]
  by_cases ha : 0x8000000000000000 ≤ after
  · rw [if_pos ha]
    exact Reads.refused (.inr ha)
  rw [if_neg ha]
  cases ho : n.isOpen with
  | false =>
      simp only [bind_apply, query_of_closed ho]
      exact Reads.refused (.inl ho)
  | true =>
      obtain ⟨result, server, gaveUp, hq, tables, later, ⟨⟨e, rfl⟩, fault⟩ | rfl⟩ :=
        (tells_replay after limit).query ho
      · simp only [bind_apply, hq]
        exact Reads.failed (.inr (.inl fault)) tables later
      · simp only [bind_apply, hq, Node.told]
        cases hlive : n.next.session.isAborted with
        | true =>
            rw [if_pos rfl]
            exact Reads.failed (.inr (.inr ⟨hlive, rfl⟩)) tables later
        | false =>
            rw [if_neg Bool.false_ne_true]
            by_cases hl : limit < 0
            · rw [if_pos hl]
              exact Reads.failed (.inl hl) tables later
            · rw [if_neg hl]
              exact Reads.told hlive tables later

/-- Reading events back changes no table and takes no number back. -/
theorem Reads.server {r : Except EventError (List Update) × Node} (h : Reads n after limit r) :
  r.2.server.tables = n.server.tables ∧ n.server.After r.2.server
  := by
  cases h with
  | refused => exact ⟨rfl, .refl _⟩
  | failed cause tables later => exact ⟨tables, later⟩
  | told live tables later => exact ⟨tables, later⟩

/-- If the pool is open, the numbers are in range and nothing was told to fail, events are read
back unless the session that is used was left inside an aborted transaction. -/
theorem replay_eq (hopen : n.isOpen = true) (hafter : after < 0x8000000000000000)
    (hlimit : 0 ≤ limit) (intact : ∀ f ∈ n.server.faults, f.kind ≠ .replay) :
  (replay after limit n).1 =
    if n.next.session.isAborted then
      .error (.access "select config events" (.database .inAborted))
    else (n.server.view n.next.session).told after limit.toNat
  := by
  have h := reads_replay n after limit
  generalize replay after limit n = r at h ⊢
  cases h with
  | refused cause =>
      obtain hc | hc := cause
      · rw [hopen] at hc
        cases hc
      · omega
  | failed cause =>
      obtain hl | ⟨f, hf, hk⟩ | ⟨haborted, rfl⟩ := cause
      · omega
      · apply absurd hk (intact f hf)
      · rw [haborted, if_pos rfl]
  | told live => rw [live, if_neg Bool.false_ne_true]

end Node

end ApiIntake.Database
