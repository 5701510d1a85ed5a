import ApiIntake.Database.Node

/-!
# Statements in transactions

What holds of every statement, whichever way a database runs transactions: it gives no number
back and is told to fail by no more than was to come (`Server.after_perform`), and one in an
aborted transaction fails (`Server.perform_of_aborted`).  Sessions of a pool have changed
nothing, so that they see what is committed now or was committed when their transaction was
begun (`Server.view_inside`), and a transaction that is begun there is a new one
(`Server.perform_begin`).
-/

namespace ApiIntake.Database

/-! ### Rows that are refused -/

namespace Tables

variable {t t' : Tables} {change : Change}

/-- The numbers of the events. -/
def numbers (t : Tables) : List Int := t.events.map EventRow.id

/-- The row of a configuration that is not refused has a new name. -/
theorem config?_of_refusal? {row : ConfigRow} (h : t.refusal? (.config row) = none) :
  t.config? row.name = none
  := by
  rw [refusal?] at h
  split at h
  · cases h
  · split at h
    · cases h
    · rename_i hnone
      simpa using hnone

/-- An event is not refused exactly if its number is new and there is a configuration under its
name. -/
theorem refusal?_event_iff {row : EventRow} :
  t.refusal? (.event row) = none ↔
    row.id ∉ t.numbers ∧ (t.config? row.name).isSome = true
  := by
  have htaken : (t.events.any fun r => r.id = row.id) = true ↔ row.id ∈ t.numbers := by
    simp [numbers]
  rw [refusal?]
  by_cases hmem : row.id ∈ t.numbers
  · simp [htaken.mpr hmem, hmem]
  · simp only [mt htaken.mp hmem, hmem, not_false_eq_true, true_and]
    cases t.config? row.name <;> simp

/-- A change that is not refused is made. -/
theorem applyAll_singleton (h : t.refusal? change = none) :
  t.applyAll [change] = .ok (t.apply change)
  := by
  rw [applyAll, h]
  rfl

/-- A change that was made was not refused. -/
theorem of_applyAll_singleton (h : t.applyAll [change] = .ok t') :
  t.refusal? change = none ∧ t' = t.apply change
  := by
  rw [applyAll] at h
  split at h
  · cases h
  · rename_i hnone
    cases h
    exact ⟨hnone, rfl⟩

/-- An event whose number is not in the table yet is put behind the others. -/
theorem putEvent_of_notMem {row : EventRow} (h : row.id ∉ t.numbers) :
  t.putEvent row = { t with events := t.events ++ [row] }
  := by
  have hf : t.events.filter (fun r => r.id ≠ row.id) = t.events := by
    apply List.filter_eq_self.mpr
    intro r hr
    apply decide_eq_true
    intro hid
    apply h
    rw [← hid]
    apply List.mem_map_of_mem hr
  rw [putEvent, hf]

/-- A configuration is found exactly if it is there. -/
theorem isSome_config?_iff {name : String} :
  (t.config? name).isSome = true ↔ ∃ row ∈ t.configs, row.name = name
  := by
  simp [config?, List.find?_isSome]

end Tables

/-! ### Sessions of a pool -/

/-- What is taken out of the pool is put back as it was. -/
theorem Pooled.pooled_session (p : Pooled) :
  p.session.pooled = p
  := by
  cases p <;> rfl

namespace Server

variable {s : Server} {session : Session} {statement : Statement} {p : Pooled}

/-- A session of the pool that is inside a transaction sees the tables, or what they were when it
was begun. -/
theorem view_inside (s : Server) (start : Tables) (aborted : Bool) :
  s.view (Pooled.inside start aborted).session = s.tables ∨
    s.view (Pooled.inside start aborted).session = start
  := by
  simp only [Pooled.session, view, List.foldl_nil]
  cases s.regime.isolation with
  | readCommitted =>
      left
      rfl
  | snapshot =>
      right
      rfl

/-- A transaction that was just begun sees the tables. -/
theorem view_begun (s : Server) :
  s.view (.begun s.tables) = s.tables
  := by
  simp only [Session.begun, view, List.foldl_nil]
  cases s.regime.isolation <;> rfl

/-! ### Failures -/

/-- A failure outside of transactions leaves the session there. -/
theorem behindFailure_none (s : Server) :
  s.behindFailure none = none
  := by
  rw [behindFailure]
  split <;> rfl

/-- A failure leaves an aborted transaction as it is. -/
theorem pooled_behindFailure_of_aborted (h : p.session.isAborted = true) :
  (s.behindFailure p.session).pooled = p
  := by
  cases p with
  | outside => cases h
  | inside start aborted =>
      obtain rfl : aborted = true := h
      rw [behindFailure]
      split <;> rfl

/-- A failure aborts the transaction in which a session of the pool was left, or leaves it as it
is. -/
theorem pooled_behindFailure (s : Server) (p : Pooled) :
  (s.behindFailure p.session).pooled = p ∨
    ∃ start aborted, p = .inside start aborted ∧
      (s.behindFailure p.session).pooled = .inside start true
  := by
  cases p with
  | outside =>
      left
      change (s.behindFailure none).pooled = _
      rw [behindFailure_none]
      rfl
  | inside start aborted =>
      rw [behindFailure]
      split
      · right
        exact ⟨start, aborted, rfl, rfl⟩
      · left
        rfl

/-! ### Any statement -/

/-- Outside of aborted transactions a statement is run. -/
theorem perform_of_live (h : session.isAborted = false) (statement : Statement) :
  s.perform session statement = s.execute session statement
  := by
  rw [perform, h, if_neg Bool.false_ne_true]

/-- Nothing but its end is accepted in an aborted transaction. -/
theorem perform_of_aborted (h : session.isAborted = true) (hk : statement.kind ≠ .commit) :
  s.perform session statement = s.fail session .inAborted
  := by
  rw [perform, if_pos h, if_neg hk]

/-- In a session of the pool a new transaction is begun, unless it was left inside an aborted
one. -/
theorem perform_begin (s : Server) (p : Pooled) :
  s.perform p.session .begin =
    if p.session.isAborted then s.fail p.session .inAborted
    else (⟨.ok .done, .begun s.tables, []⟩, s)
  := by
  rw [perform]
  split
  · rfl
  · rename_i hlive
    cases p with
    | outside => rfl
    | inside start aborted =>
        obtain rfl : aborted = false := by simpa [Pooled.session, Session.isAborted] using hlive
        rfl

/-- A database later on: it runs transactions as before, takes no number back and is told to fail
in no other way. -/
structure After (s s' : Server) : Prop where
  /-- It runs transactions as before. -/
  regime : s'.regime = s.regime
  /-- Numbers that were given are not given again. -/
  ids : s.nextEventId ≤ s'.nextEventId
  /-- What it is told to fail it was told before. -/
  faults : s'.faults ⊆ s.faults

namespace After

variable {s' s'' : Server}

/-- A database is where it is. -/
theorem refl (s : Server) :
  s.After s
  := ⟨rfl, Int.le_refl _, List.Subset.refl _⟩

/-- What is later than something later is later. -/
theorem trans (h : s.After s') (h' : s'.After s'') :
  s.After s''
  := ⟨h'.regime.trans h.regime, Int.le_trans h.ids h'.ids, List.Subset.trans h'.faults h.faults⟩

/-- It makes no difference which statements have arrived. -/
theorem of_log {log : List Statement} (h : { s with log }.After s') :
  s.After s'
  := ⟨h.regime, h.ids, h.faults⟩

end After

/-- Inserting a row gives no number. -/
theorem after_insert (s : Server) (session : Session) (change : Change) (answer : Answer) :
  s.After (s.insert session change answer).2
  := by
  rw [insert.eq_def]
  split
  · apply After.refl
  · cases session with
    | some x => apply After.refl
    | none => exact ⟨rfl, Int.le_refl _, List.Subset.refl _⟩

/-- Whatever statement is run, the database is later behind it. -/
theorem after_execute (s : Server) (session : Session) (statement : Statement) :
  s.After (s.execute session statement).2
  := by
  cases statement with
  | begin => cases session <;> apply After.refl
  | commit =>
      cases session with
      | none => apply After.refl
      | some x =>
          rw [execute]
          split
          · apply After.refl
          · exact ⟨rfl, Int.le_refl _, List.Subset.refl _⟩
  | listen | createConfigs | createEvents | createIndex => apply After.refl
  | insertConfig row => apply after_insert
  | insertEvent name hash =>
      have hnext : s.After { s with nextEventId := s.nextEventId + 1 } :=
        ⟨rfl, Int.le_add_one (Int.le_refl _), List.Subset.refl _⟩
      apply hnext.trans
      apply after_insert
  | notify channel payload =>
      rw [execute.eq_def]
      dsimp only
      split
      · apply After.refl
      · cases session <;> apply After.refl
  | selectConfig | selectConfigs => apply After.refl
  | replay after limit =>
      rw [execute]
      split <;> apply After.refl

/-- Whatever statement arrives, the database is later behind it. -/
theorem after_perform (s : Server) (session : Session) (statement : Statement) :
  s.After (s.perform session statement).2
  := by
  rw [perform]
  split
  · split <;> apply After.refl
  · apply after_execute

end Server

end ApiIntake.Database
