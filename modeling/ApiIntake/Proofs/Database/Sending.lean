import ApiIntake.Proofs.Database.Rest

/-!
# How an announcement gets into the database

An announcement is sent in a few statements, and other sessions may go on between any two of
them.  `Stage` says how far it has come, and `Node.advance` runs the next statement; all of
them in a row are `Node.sendUpdate` (`Node.sendUpdate_eq`).

`Node.Step` lists what the next statement can do (`Node.step_advance`): the tables change only
when the transaction commits, by the one event of the announcement, and only then the
notification is sent (`Node.Step.effect`).
-/

namespace ApiIntake.Database

open ApiIntake.Feed (AnnounceFailure Update)

/-! ### Stages -/

/-- How far an announcement has come. -/
inductive Stage where
  /-- A session of the pool was taken for it. -/
  | taken (p : Pooled)
  /-- Its transaction was begun. -/
  | begun (session : Session)
  /-- Its event stands in the transaction. -/
  | recorded (session : Session) (u : Update)
  /-- The notification waits for the transaction to commit. -/
  | notified (session : Session) (u : Update)
  /-- It is over. -/
  | ended (result : Except AnnounceFailure Update)

/-- The row of the event of an announcement. -/
def rowOf (u : Update) : EventRow := ⟨u.eventId, u.name, u.configHash⟩

/-- The number of an event that stands in a transaction. -/
def Stage.number? : Stage → Option Int
  | .recorded _ u | .notified _ u => some u.eventId
  | _ => none

/-- Its session is inside a transaction that was not aborted, unless it was just taken. -/
def Stage.InTransaction : Stage → Prop
  | .begun session | .recorded session _ | .notified session _ =>
    ∃ x, session = some x ∧ x.aborted = false
  | _ => True

/-- The transaction of an announcement holds what belongs to it. -/
inductive Stage.Sound (origin : String) (c : ServerConfig) : Stage → Prop
  | taken (p : Pooled) : Sound origin c (.taken p)
  | begun {start : Tables} : Sound origin c (.begun (.begun start))
  | recorded {start : Tables} {id : Nat} :
    Sound origin c
      (.recorded (some ⟨start, [.event (rowOf (.ofConfig c id))], [], false⟩) (.ofConfig c id))
  | notified {start : Tables} {id : Nat} :
    Sound origin c
      (.notified
        (some
          ⟨start, [.event (rowOf (.ofConfig c id))],
            [Dispatch.payload ⟨origin, .ofConfig c id⟩], false⟩)
        (.ofConfig c id))
  | ended (result : Except AnnounceFailure Update) : Sound origin c (.ended result)

/-- The transaction of an announcement is one. -/
theorem Stage.Sound.inTransaction {origin : String} {c : ServerConfig} {stage : Stage}
    (h : stage.Sound origin c) :
  stage.InTransaction
  := by
  cases h with
  | taken => trivial
  | begun => exact ⟨_, rfl, rfl⟩
  | recorded => exact ⟨_, rfl, rfl⟩
  | notified => exact ⟨_, rfl, rfl⟩
  | ended => trivial

/-- An announcement is over or goes on. -/
theorem Stage.ended_or_going (stage : Stage) :
  (∃ r, stage = .ended r) ∨ ∀ r, stage ≠ .ended r
  := by
  by_cases h : ∃ r, stage = .ended r
  · left
    apply h
  · right
    intro r hr
    apply h ⟨r, hr⟩

/-! ### Sessions that are given back -/

/-- What a call may give back of the sessions that it found, or may leave of those of a pool: they
are as they were or outside of transactions, if the caller gave up while a transaction was being
begun they are inside one, and if a statement was told to fail it may have aborted one. -/
inductive Returned (t : Token) (s : Server) (found : Pooled → Prop) : Pooled → Prop
  | same {p : Pooled} (h : found p) : Returned t s found p
  | outside : Returned t s found .outside
  | begun (gaveUp : t.cancelAt = some .begin) : Returned t s found (.inside s.tables false)
  | aborted {start : Tables} {aborted : Bool} (h : found (.inside start aborted))
    (told : s.faults ≠ []) : Returned t s found (.inside start true)

namespace Returned

variable {t : Token} {s s' : Server} {found found' : Pooled → Prop} {p : Pooled}

/-- A session that was found, or a new one, may be given back as it is. -/
theorem of_found (h : found p ∨ p = .outside) :
  Returned t s found p
  := by
  obtain h | rfl := h
  · exact .same h
  · exact .outside

/-- What is given back at a later time, when the tables are the same, is given back. -/
theorem of_later (h : Returned t s' found p) (tables : s'.tables = s.tables) (after : s.After s')
    (hfound : ∀ p, found p → found' p ∨ p = .outside) :
  Returned t s found' p
  := by
  cases h with
  | same h => apply Returned.of_found (hfound _ h)
  | outside => exact .outside
  | begun gaveUp =>
      rw [tables]
      exact .begun gaveUp
  | aborted h told =>
      obtain h | ⟨⟨⟩⟩ := hfound _ h
      apply Returned.aborted h
      intro hnone
      apply told (List.eq_nil_of_subset_nil (hnone ▸ after.faults))

/-- It may be given back behind a failure that was told. -/
theorem behindFailure (h : found p ∨ p = .outside) (told : s.faults ≠ []) (s' : Server) :
  Returned t s found (s'.behindFailure p.session).pooled
  := by
  obtain hp | ⟨start, aborted, rfl, hp⟩ := Server.pooled_behindFailure s' p
  · rw [hp]
    apply Returned.of_found h
  · rw [hp]
    obtain h | ⟨⟨⟩⟩ := h
    exact .aborted h told

/-- Callers that do not give up while a transaction is being begun leave sessions outside of
transactions there. -/
theorem outside_of_patient (h : Returned t s found p) (patient : t.cancelAt ≠ some .begin)
    (hfound : ∀ p, found p → p = .outside) :
  p = .outside
  := by
  cases h with
  | same h => apply hfound _ h
  | outside => rfl
  | begun gaveUp => apply absurd gaveUp patient
  | aborted h => cases hfound _ h

/-- If nothing is told to fail, no transaction is aborted. -/
theorem live_of_safe (h : Returned t s found p) (safe : s.faults = [])
    (hfound : ∀ p, found p → p.session.isAborted = false) :
  p.session.isAborted = false
  := by
  cases h with
  | same h => apply hfound _ h
  | outside => rfl
  | begun => rfl
  | aborted _ told => apply absurd safe told

/-- A transaction in which a session is given back was begun before or is begun now. -/
theorem start_of_inside {start : Tables} {aborted : Bool}
    (h : Returned t s found (.inside start aborted)) :
  (∃ aborted, found (.inside start aborted)) ∨ start = s.tables
  := by
  cases h with
  | same h =>
      left
      use aborted
  | begun =>
      right
      rfl
  | @aborted _ b h =>
      left
      use b

end Returned

namespace Node

/-- Takes a session for an announcement. -/
def startSending (t : Token) : StateM Node Stage := do
  if isCancelled t (← get) then return .ended (.error .cancelled)
  match ← acquire with
  | .error e => return .ended (.error (.unavailable e.text))
  | .ok p => return .taken p

/-- Gives a session back and fails. -/
def giveUp (p : Pooled) (e : AnnounceFailure) : StateM Node Stage := do
  release p
  return .ended (.error e)

/-- Runs the next statement of an announcement. -/
def advance (origin : String) (t : Token) (c : ServerConfig) : Stage → StateM Node Stage
  | .taken p => do
    match ← send t p.session .begin with
    | (.abandoned, session) => giveUp session.pooled .cancelled
    | (.failed e, session) => giveUp session.pooled (.unavailable (AccessError.database e).text)
    | (.answered _, session) => return .begun session
  | .begun session => do
    match ← send t session (.insertEvent c.name c.digest) with
    | (.abandoned, _) => giveUp .outside .cancelled
    | (.failed e, _) =>
      giveUp .outside (.unavailable (EventError.access "insert config event" (.database e)).message)
    | (.answered answer, session) =>
      match updateOf c answer with
      | .error e => giveUp .outside (.unavailable e.message)
      | .ok u => return .recorded session u
  | .recorded session u => do
    match ← send t session (.notify announceChannel (Dispatch.payload ⟨origin, u⟩)) with
    | (.abandoned, _) => giveUp .outside .cancelled
    | (.failed e, _) =>
      giveUp .outside (.unavailable (EventError.access "pg_notify" (.database e)).message)
    | (.answered _, session) => return .notified session u
  | .notified session u => do
    let (reply, _) ← send t session .commit
    release .outside
    match reply with
    | .failed e =>
      return .ended
        (.error (.unavailable ("commit config event: " ++ (AccessError.database e).text)))
    | _ => return .ended (.ok u)
  | .ended result => return .ended result

section

variable {origin : String} {t : Token} {c : ServerConfig} {n n' : Node} {session : Session}

/-- What is over stays so. -/
theorem advance_ended (origin : String) (t : Token) (c : ServerConfig)
    (result : Except AnnounceFailure Update) :
  advance origin t c (.ended result) = pure (.ended result)
  := rfl

/-- An announcement is sent statement by statement. -/
theorem sendUpdate_eq (origin : String) (t : Token) (c : ServerConfig) (n : Node) :
  (do
    let stage ← startSending t
    let stage ← advance origin t c stage
    let stage ← advance origin t c stage
    let stage ← advance origin t c stage
    advance origin t c stage) n =
      (.ended (sendUpdate origin t c n).1, (sendUpdate origin t c n).2)
  := by
  by_cases hc : isCancelled t n = true
  · simp [sendUpdate, startSending, bind_apply, pure_apply, get_apply, hc, advance_ended]
  rcases ha : acquire n with ⟨e | p, n₁⟩
  · simp [sendUpdate, startSending, bind_apply, pure_apply, get_apply, hc, ha, advance_ended]
  simp only [sendUpdate, startSending, bind_apply, pure_apply, get_apply, hc, ha,
    Bool.false_eq_true, if_false]
  rcases hb : send t p.session .begin n₁ with ⟨⟨_ | e | _, session₂⟩, n₂⟩
  · rcases hi : send t session₂ (.insertEvent c.name c.digest) n₂ with
      ⟨⟨answer | e | _, session₃⟩, n₃⟩
    · rcases hu : updateOf c answer with e | u
      · simp [bind_apply, advance, giveUp, pure_apply, map_apply, hb, hi, hu]
      · rcases hn : send t session₃ (.notify announceChannel (Dispatch.payload ⟨origin, u⟩)) n₃ with
          ⟨⟨_ | e | _, session₄⟩, n₄⟩
        · rcases hm : send t session₄ .commit n₄ with ⟨⟨_ | e | _, session₅⟩, n₅⟩ <;>
            simp [bind_apply, advance, giveUp, pure_apply, hb, hi, hu, hn, hm]
        · simp [bind_apply, advance, giveUp, pure_apply, map_apply, hb, hi, hu, hn]
        · simp [bind_apply, advance, giveUp, pure_apply, map_apply, hb, hi, hu, hn]
    · simp [bind_apply, advance, giveUp, pure_apply, map_apply, hb, hi]
    · simp [bind_apply, advance, giveUp, pure_apply, map_apply, hb, hi]
  · simp [bind_apply, advance, giveUp, pure_apply, map_apply, hb]
  · simp [bind_apply, advance, giveUp, pure_apply, map_apply, hb]

/-! ### Steps -/

/-- What the next statement of an announcement can do, given the node and how far the
announcement has come: it comes further, or it fails and its session is given back. -/
inductive Step (origin : String) (t : Token) (c : ServerConfig) (n : Node) :
    Stage → Stage × Node → Prop
  /-- The transaction is begun on the tables as they are. -/
  | begins {p : Pooled} {server : Server} {gaveUp : Bool}
    (tables : server.tables = n.server.tables) (after : n.server.After server) :
    Step origin t c n (.taken p) (.begun (.begun n.server.tables), { n with server, gaveUp })
  /-- The event is recorded under the next number, which is not negative. -/
  | records {x : Transaction} {id : Nat} {server : Server} {gaveUp : Bool}
    (number : n.server.nextEventId = id) (given : id < server.nextEventId)
    (tables : server.tables = n.server.tables) (after : n.server.After server) :
    Step origin t c n (.begun (some x))
      (.recorded (some { x with changes := x.changes ++ [.event (rowOf (.ofConfig c id))] })
          (.ofConfig c id),
        { n with server, gaveUp })
  /-- The notification waits. -/
  | notifies {x : Transaction} {u : Update} {server : Server} {gaveUp : Bool}
    (tables : server.tables = n.server.tables) (after : n.server.After server) :
    Step origin t c n (.recorded (some x) u)
      (.notified (some { x with payloads := x.payloads ++ [Dispatch.payload ⟨origin, u⟩] }) u,
        { n with server, gaveUp })
  /-- The transaction commits. -/
  | commits {x : Transaction} {u : Update} {server : Server} {gaveUp : Bool}
    (tables : n.server.tables.applyAll x.changes = .ok server.tables)
    (after : n.server.After server) :
    Step origin t c n (.notified (some x) u)
      (.ended (.ok u),
        { n with
          server
          gaveUp
          arrived := n.arrived ++ x.payloads
          idle := n.idle ++ [.outside] })
  /-- It fails, and its session is given back. -/
  | fails {stage : Stage} {e : AnnounceFailure} {p : Pooled} {server : Server} {gaveUp : Bool}
    (tables : server.tables = n.server.tables) (after : n.server.After server)
    (returned : Returned t n.server (fun p => stage = .taken p) p) :
    Step origin t c n stage
      (.ended (.error e), { n with server, gaveUp, idle := n.idle ++ [p] })

/-- What a statement has done when its answer comes back, or does not. -/
inductive Sent (t : Token) (session : Session) (statement : Statement) (n : Node) :
    (Reply × Session) × Node → Prop
  /-- It was told to fail, and did nothing else. -/
  | refused {reply : Reply} {server : Server} {gaveUp : Bool}
    (fault : ∃ f ∈ n.server.faults, f.kind = statement.kind)
    (cause : (∃ e, reply = .failed e) ∨ reply = .abandoned ∧ canAbandon statement.kind = true)
    (tables : server.tables = n.server.tables) (after : n.server.After server) :
    Sent t session statement n
      ((reply,
          if statement.kind = .commit then none else n.server.behindFailure session),
        { n with server, gaveUp })
  /-- It was done, and its answer came unless the caller gave up before. -/
  | done {reply : Reply} {effect : Server.Effect} {server : Server} {log : List Statement}
    {gaveUp : Bool}
    (done : { n.server with log }.perform session statement = (effect, server))
    (cause : reply = .ofAnswer effect.answer ∨
      reply = .abandoned ∧ t.cancelAt = some statement.kind ∧ canAbandon statement.kind = true) :
    Sent t session statement n
      ((reply, effect.session),
        { n with server, gaveUp, arrived := n.arrived ++ effect.sent })

/-- What has to fail was told to, and all that is still to fail was told to as well. -/
theorem exists_fault {kind : StatementKind} {faults rest : List Fault} {e : SqlError}
    (h : Server.takeFault kind faults = (some e, rest)) :
  (∃ f ∈ faults, f.kind = kind) ∧ rest ⊆ faults
  := by
  induction faults generalizing rest with
  | nil => cases h
  | cons f faults ih =>
      rw [Server.takeFault] at h
      split at h
      · rename_i hf
        cases h
        exact ⟨⟨f, List.mem_cons_self, hf⟩, List.subset_cons_self f _⟩
      · cases hr : Server.takeFault kind faults with
        | mk e' rest' =>
            rw [hr] at h
            cases h
            obtain ⟨⟨f', hf', hk⟩, hsub⟩ := ih hr
            exact ⟨⟨f', List.mem_cons_of_mem _ hf', hk⟩, List.cons_subset_cons f hsub⟩

/-- A statement is told to fail or does what it does, and the caller gives up or not. -/
theorem sent_send (t : Token) (session : Session) (statement : Statement) (n : Node) :
  Sent t session statement n (send t session statement n)
  := by
  rw [send, Server.run]
  rcases hf : Server.takeFault statement.kind n.server.faults with ⟨_ | e, faults⟩
  · rcases hp : { n.server with log := n.server.log ++ [statement] }.perform session statement with
      ⟨effect, server⟩
    dsimp only
    rw [hp]
    dsimp only
    split
    · rename_i hc
      obtain ⟨hcancel, hcan⟩ := Bool.and_eq_true_iff.mp hc
      apply Sent.done hp
      right
      exact ⟨rfl, of_decide_eq_true hcancel, hcan⟩
    · apply Sent.done hp
      left
      cases effect.answer <;> rfl
  · obtain ⟨fault, hsub⟩ := exists_fault hf
    have hrefused : (if statement.kind = .commit then
          ((⟨.error e, none, []⟩ : Server.Effect),
            { n.server with log := n.server.log ++ [statement], faults })
        else { n.server with log := n.server.log ++ [statement], faults }.fail session e) =
        (⟨.error e,
            if statement.kind = .commit then none else n.server.behindFailure session, []⟩,
          { n.server with log := n.server.log ++ [statement], faults }) := by
      split <;> rfl
    dsimp only
    rw [hrefused, List.append_nil]
    split
    · rename_i hc
      apply Sent.refused fault
      · right
        exact ⟨rfl, (Bool.and_eq_true_iff.mp hc).2⟩
      · rfl
      · exact ⟨rfl, Int.le_refl _, hsub⟩
    · apply Sent.refused fault
      · left
        use e
      · rfl
      · exact ⟨rfl, Int.le_refl _, hsub⟩

/-- A statement does not change the tables by itself and sends nothing. -/
def Quiet (session : Session) (statement : Statement) : Prop :=
  ∀ s : Server, (s.perform session statement).2.tables = s.tables ∧
    (s.perform session statement).1.sent = []

/-- Rows are inserted inside transactions. -/
theorem quiet_insert (s : Server) (x : Transaction) (change : Change) (answer : Answer) :
  (s.insert (some x) change answer).2.tables = s.tables ∧
    (s.insert (some x) change answer).1.sent = []
  := by
  rw [Server.insert]
  split
  · exact ⟨rfl, rfl⟩
  · exact ⟨rfl, rfl⟩

/-- What is quiet where it is run is quiet. -/
theorem quiet_of_execute {statement : Statement} (hk : statement.kind ≠ .commit)
    (h : ∀ s : Server, (s.execute session statement).2.tables = s.tables ∧
      (s.execute session statement).1.sent = []) :
  Quiet session statement
  := by
  intro s
  cases hs : session.isAborted with
  | true =>
      rw [Server.perform_of_aborted hs hk]
      exact ⟨rfl, rfl⟩
  | false =>
      rw [Server.perform_of_live hs]
      apply h

/-- Events are recorded inside transactions. -/
theorem quiet_insertEvent (x : Transaction) (name hash : String) :
  Quiet (some x) (.insertEvent name hash)
  := by
  apply quiet_of_execute (by rintro ⟨⟩)
  intro s
  rw [Server.execute]
  apply quiet_insert { s with nextEventId := s.nextEventId + 1 }

/-- Notifications wait inside transactions. -/
theorem quiet_notify (x : Transaction) (channel payload : String) :
  Quiet (some x) (.notify channel payload)
  := by
  apply quiet_of_execute (by rintro ⟨⟩)
  intro s
  rw [Server.execute]
  split
  · exact ⟨rfl, rfl⟩
  · exact ⟨rfl, rfl⟩

variable {statement : Statement} {reply : Reply} {session' : Session}

/-- A quiet statement changes nothing but what was told to fail, and may have taken a number. -/
theorem Sent.quiet (h : Sent t session statement n ((reply, session'), n'))
    (hq : Quiet session statement) :
  ∃ server gaveUp, n' = { n with server, gaveUp } ∧ server.tables = n.server.tables ∧
    n.server.After server
  := by
  cases h with
  | @refused _ server gaveUp fault cause tables after =>
      exact ⟨server, gaveUp, rfl, tables, after⟩
  | @done _ effect server log gaveUp done =>
      obtain ⟨ht, hs⟩ := hq { n.server with log }
      have hafter := Server.after_perform { n.server with log } session statement
      rw [done] at ht hs hafter
      use server, gaveUp
      rw [hs, List.append_nil]
      exact ⟨rfl, ht, hafter.of_log⟩

/-- A statement that is answered was done. -/
theorem Sent.of_answered {answer : Answer}
    (h : Sent t session statement n ((.answered answer, session'), n')) :
  ∃ effect server log gaveUp, { n.server with log }.perform session statement = (effect, server) ∧
    effect.answer = .ok answer ∧ session' = effect.session ∧
    n' = { n with server, gaveUp, arrived := n.arrived ++ effect.sent }
  := by
  cases h with
  | refused fault cause => obtain ⟨_, ⟨⟩⟩ | ⟨⟨⟩, -⟩ := cause
  | @done _ effect server log gaveUp done cause =>
      obtain hr | ⟨⟨⟩, -⟩ := cause
      use effect, server, log, gaveUp, done
      cases ha : effect.answer with
      | ok a =>
          rw [ha] at hr
          cases hr
          exact ⟨rfl, rfl, rfl⟩
      | error e =>
          rw [ha] at hr
          cases hr

/-- What comes of beginning a transaction in a session of the pool: it is begun on the tables as
they are, or there is no answer to go on with, and the session may be left. -/
inductive Begun (t : Token) (p : Pooled) (n : Node) : (Reply × Session) × Node → Prop
  /-- It is begun. -/
  | begun {server : Server} {gaveUp : Bool} (tables : server.tables = n.server.tables)
    (after : n.server.After server) :
    Begun t p n ((.answered .done, .begun n.server.tables), { n with server, gaveUp })
  /-- It failed. -/
  | failed {e : SqlError} {session : Session} {server : Server} {gaveUp : Bool}
    (tables : server.tables = n.server.tables) (after : n.server.After server)
    (returned : Returned t n.server (· = p) session.pooled) :
    Begun t p n ((.failed e, session), { n with server, gaveUp })
  /-- The caller gave up. -/
  | abandoned {session : Session} {server : Server} {gaveUp : Bool}
    (tables : server.tables = n.server.tables) (after : n.server.After server)
    (returned : Returned t n.server (· = p) session.pooled) :
    Begun t p n ((.abandoned, session), { n with server, gaveUp })

/-- Beginning a transaction does one of these. -/
theorem begun_send (t : Token) (p : Pooled) (n : Node) :
  Begun t p n (send t p.session .begin n)
  := by
  have hs := sent_send t p.session .begin n
  generalize send t p.session .begin n = r at hs ⊢
  cases hs with
  | refused fault cause tables after =>
      obtain ⟨f, hf, -⟩ := fault
      have hreturned : Returned t n.server (· = p) (n.server.behindFailure p.session).pooled := by
        apply Returned.behindFailure _ (List.ne_nil_of_mem hf)
        exact .inl rfl
      obtain ⟨e, rfl⟩ | ⟨rfl, -⟩ := cause
      · exact Begun.failed tables after hreturned
      · exact Begun.abandoned tables after hreturned
  | @done _ _ _ log gaveUp done cause =>
      rw [Server.perform_begin] at done
      split at done
      · rename_i haborted
        cases done
        have hreturned : Returned t n.server (· = p)
            (Server.behindFailure { n.server with log } p.session).pooled := by
          rw [Server.pooled_behindFailure_of_aborted haborted]
          exact .same rfl
        rw [List.append_nil]
        obtain rfl | ⟨rfl, -, -⟩ := cause
        · exact Begun.failed rfl (Server.After.refl _).of_log hreturned
        · exact Begun.abandoned rfl (Server.After.refl _).of_log hreturned
      · cases done
        rw [List.append_nil]
        obtain rfl | ⟨rfl, cancelAt, -⟩ := cause
        · exact Begun.begun rfl (Server.After.refl _).of_log
        · exact Begun.abandoned rfl (Server.After.refl _).of_log (.begun cancelAt)

/-- Beginning takes one of the steps. -/
theorem step_taken (origin : String) (t : Token) (c : ServerConfig) (p : Pooled) (n : Node) :
  Step origin t c n (.taken p) (advance origin t c (.taken p) n)
  := by
  rw [advance, bind_apply]
  have hb := begun_send t p n
  generalize send t p.session .begin n = r at hb ⊢
  have htaken : ∀ q, q = p → Stage.taken p = .taken q ∨ q = .outside := by
    rintro q rfl
    left
    rfl
  cases hb with
  | begun tables after => exact Step.begins tables after
  | failed tables after returned | abandoned tables after returned =>
      exact Step.fails tables after (returned.of_later rfl (.refl _) htaken)

variable {x : Transaction}

/-- Recording the event takes one of the steps. -/
theorem step_begun (origin : String) (t : Token) (c : ServerConfig) (live : x.aborted = false)
    (n : Node) :
  Step origin t c n (.begun (some x)) (advance origin t c (.begun (some x)) n)
  := by
  rw [advance, bind_apply]
  have hlive : Session.isAborted (some x) = false := live
  have hq := quiet_insertEvent x c.name c.digest
  have hs := sent_send t (some x) (.insertEvent c.name c.digest) n
  generalize send t (some x) (.insertEvent c.name c.digest) n = r at hs ⊢
  obtain ⟨⟨reply, session'⟩, n'⟩ := r
  cases reply with
  | answered answer =>
      obtain ⟨effect, server, log, gaveUp, done, ok, rfl, rfl⟩ := hs.of_answered
      have hafter := Server.after_perform { n.server with log } (some x)
        (.insertEvent c.name c.digest)
      rw [done] at hafter
      rw [Server.perform_of_live hlive, Server.execute, Server.insert] at done
      split at done
      · cases done
        cases ok
      · cases done
        cases ok
        rw [List.append_nil]
        dsimp only [updateOf]
        by_cases hid : 0 ≤ n.server.nextEventId
        · obtain ⟨id, hid⟩ := Int.eq_ofNat_of_zero_le hid
          rw [hid, if_pos (Int.natCast_nonneg id), Int.toNat_natCast]
          apply Step.records hid
          · exact Int.lt_add_one_of_le (Int.le_refl _)
          · rfl
          · rw [← hid]
            apply hafter.of_log
        · rw [if_neg hid]
          exact Step.fails rfl hafter.of_log .outside
  | failed e =>
      obtain ⟨server, gaveUp, rfl, tables, after⟩ := hs.quiet hq
      exact Step.fails tables after .outside
  | abandoned =>
      obtain ⟨server, gaveUp, rfl, tables, after⟩ := hs.quiet hq
      exact Step.fails tables after .outside

/-- Notifying takes one of the steps. -/
theorem step_recorded (origin : String) (t : Token) (c : ServerConfig) (live : x.aborted = false)
    (u : Update) (n : Node) :
  Step origin t c n (.recorded (some x) u) (advance origin t c (.recorded (some x) u) n)
  := by
  rw [advance, bind_apply]
  have hlive : Session.isAborted (some x) = false := live
  have hq := quiet_notify x announceChannel (Dispatch.payload ⟨origin, u⟩)
  have hs := sent_send t (some x) (.notify announceChannel (Dispatch.payload ⟨origin, u⟩)) n
  generalize send t (some x) (.notify announceChannel (Dispatch.payload ⟨origin, u⟩)) n = r at hs ⊢
  obtain ⟨⟨reply, session'⟩, n'⟩ := r
  cases reply with
  | answered answer =>
      obtain ⟨effect, server, log, gaveUp, done, ok, rfl, rfl⟩ := hs.of_answered
      rw [Server.perform_of_live hlive, Server.execute] at done
      split at done
      · cases done
        cases ok
      · cases done
        cases ok
        rw [List.append_nil]
        exact Step.notifies rfl (Server.After.refl _).of_log
  | failed e =>
      obtain ⟨server, gaveUp, rfl, tables, after⟩ := hs.quiet hq
      exact Step.fails tables after .outside
  | abandoned =>
      obtain ⟨server, gaveUp, rfl, tables, after⟩ := hs.quiet hq
      exact Step.fails tables after .outside

/-- What comes of committing a transaction that was not aborted: it fails and is rolled back, or its
changes are made and its notifications sent. -/
inductive Committed (x : Transaction) (n : Node) : (Reply × Session) × Node → Prop
  /-- It fails. -/
  | failed {e : SqlError} {server : Server} {gaveUp : Bool}
    (tables : server.tables = n.server.tables) (after : n.server.After server) :
    Committed x n ((.failed e, none), { n with server, gaveUp })
  /-- It is committed. -/
  | committed {server : Server} {gaveUp : Bool}
    (tables : n.server.tables.applyAll x.changes = .ok server.tables)
    (after : n.server.After server) :
    Committed x n
      ((.answered .done, none), { n with server, gaveUp, arrived := n.arrived ++ x.payloads })

/-- Committing does one of these. -/
theorem committed_send (t : Token) (live : x.aborted = false) (n : Node) :
  Committed x n (send t (some x) .commit n)
  := by
  have hlive : Session.isAborted (some x) = false := live
  have hs := sent_send t (some x) .commit n
  generalize send t (some x) .commit n = r at hs ⊢
  cases hs with
  | refused fault cause tables after =>
      obtain ⟨e, rfl⟩ | ⟨-, ⟨⟩⟩ := cause
      exact Committed.failed tables after
  | done done cause =>
      rw [Server.perform_of_live hlive, Server.execute] at done
      obtain rfl | ⟨-, -, ⟨⟩⟩ := cause
      split at done
      · cases done
        rw [List.append_nil]
        exact Committed.failed rfl (Server.After.refl _).of_log
      · rename_i hchanged
        cases done
        exact Committed.committed hchanged ⟨rfl, Int.le_refl _, List.Subset.refl _⟩

/-- Committing takes one of the steps. -/
theorem step_notified (origin : String) (t : Token) (c : ServerConfig) (live : x.aborted = false)
    (u : Update) (n : Node) :
  Step origin t c n (.notified (some x) u) (advance origin t c (.notified (some x) u) n)
  := by
  rw [advance, bind_apply]
  have hc := committed_send t live n
  generalize send t (some x) .commit n = r at hc ⊢
  cases hc with
  | failed tables after => exact Step.fails tables after .outside
  | committed tables after => exact Step.commits tables after

/-- The next statement of an announcement takes one of the steps. -/
theorem step_advance {stage : Stage} (h : stage.InTransaction) (hgoing : ∀ r, stage ≠ .ended r) :
  Step origin t c n stage (advance origin t c stage n)
  := by
  cases stage with
  | taken p => apply step_taken
  | begun session =>
      obtain ⟨x, rfl, live⟩ := h
      apply step_begun origin t c live
  | recorded session u =>
      obtain ⟨x, rfl, live⟩ := h
      apply step_recorded origin t c live
  | notified session u =>
      obtain ⟨x, rfl, live⟩ := h
      apply step_notified origin t c live
  | ended r => apply absurd rfl (hgoing r)

/-! ### What a step brings about -/

variable {stage stage' : Stage}

/-- A step concerns the database, the pool and what was sent. -/
theorem Step.frame (h : Step origin t c n stage (stage', n')) :
  n'.id = n.id ∧ n'.feed = n.feed ∧ n'.listeners = n.listeners ∧ n.server.After n'.server
  := by
  cases h with
  | begins tables after => exact ⟨rfl, rfl, rfl, after⟩
  | records number given tables after => exact ⟨rfl, rfl, rfl, after⟩
  | notifies tables after => exact ⟨rfl, rfl, rfl, after⟩
  | commits tables after => exact ⟨rfl, rfl, rfl, after⟩
  | fails tables after => exact ⟨rfl, rfl, rfl, after⟩

/-- The tables change only when the transaction commits, by the event of the announcement, whose
number is new and whose configuration is there; and only then the notification is sent. -/
theorem Step.effect (h : Step origin t c n stage (stage', n')) (hs : stage.Sound origin c) :
  (n'.server.tables = n.server.tables ∧ n'.arrived = n.arrived ∧ ∀ u, stage' ≠ .ended (.ok u)) ∨
    ∃ id, stage' = .ended (.ok (.ofConfig c id)) ∧
      n'.server.tables = n.server.tables.putEvent (rowOf (.ofConfig c id)) ∧
      n'.arrived = n.arrived ++ [Dispatch.payload ⟨origin, .ofConfig c id⟩] ∧
      (id : Int) ∉ n.server.tables.numbers ∧ ∃ row ∈ n.server.tables.configs, row.name = c.name
  := by
  cases h with
  | begins tables =>
      left
      use tables, rfl
      rintro u ⟨⟩
  | records number given tables =>
      left
      use tables, rfl
      rintro u ⟨⟩
  | notifies tables =>
      left
      use tables, rfl
      rintro u ⟨⟩
  | commits tables =>
      right
      cases hs with
      | @notified start id =>
          obtain ⟨hallowed, htables⟩ := Tables.of_applyAll_singleton tables
          obtain ⟨hnew, hknown⟩ := Tables.refusal?_event_iff.mp hallowed
          use id, rfl, htables, rfl, hnew
          apply Tables.isSome_config?_iff.mp hknown
  | fails tables =>
      left
      use tables, rfl
      rintro u ⟨⟩

/-- The transaction of an announcement goes on to hold what belongs to it. -/
theorem Step.sound (h : Step origin t c n stage (stage', n')) (hs : stage.Sound origin c) :
  stage'.Sound origin c
  := by
  cases h with
  | begins => exact .begun
  | records =>
      cases hs with
      | begun => exact .recorded
  | notifies =>
      cases hs with
      | recorded => exact .notified
  | commits => exact .ended _
  | fails => exact .ended _

/-- An announcement begins with a session of the pool or a new one, or it fails at once. -/
theorem startSending_cases (t : Token) (n : Node) :
  ∃ idle, (∀ p ∈ idle, p ∈ n.idle) ∧
    ((∃ e, startSending t n = (.ended (.error e), { n with idle })) ∨
      ∃ p, (p ∈ n.idle ∨ p = .outside) ∧ startSending t n = (.taken p, { n with idle }))
  := by
  by_cases hc : isCancelled t n = true
  · use n.idle, fun _ h => h
    left
    use .cancelled
    simp [startSending, bind_apply, pure_apply, get_apply, hc]
  · obtain ⟨server, idle, isOpen, gaveUp, id, feed, listeners, arrived, closing⟩ := n
    cases isOpen with
    | false =>
        use idle, fun _ h => h
        left
        use .unavailable AccessError.closed.text
        simp [startSending, bind_apply, pure_apply, get_apply, hc, acquire]
    | true =>
        cases idle with
        | nil =>
            use [], fun _ h => h
            right
            use .outside, .inr rfl
            simp [startSending, bind_apply, pure_apply, get_apply, hc, acquire]
        | cons p idle =>
            use idle, fun _ h => List.mem_cons_of_mem _ h
            right
            use p, .inl List.mem_cons_self
            simp [startSending, bind_apply, pure_apply, get_apply, hc, acquire]

end

end Node

end ApiIntake.Database
