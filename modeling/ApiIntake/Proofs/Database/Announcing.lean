import ApiIntake.Proofs.Database.Storing

/-!
# Announcing at a node

An announcement that nothing else interrupts is brought from statement to statement to its end
(`Node.progress_sendUpdate`).  Whatever fails and whenever its caller gives up, either it is
recorded under a new number and published, or neither (`Node.announces_announce`).
-/

namespace ApiIntake.Database

open ApiIntake.Feed (AnnounceFailure Update)

namespace Node

variable {t : Token} {c : ServerConfig} {n m m' : Node} {stage stage' : Stage}

/-- How far an announcement has come at a node, and what it has done since it was begun. -/
structure Progress (t : Token) (c : ServerConfig) (n : Node) (stage : Stage) (m : Node) : Prop
    extends Keeps t n m where
  /-- The feed is as it was. -/
  feed : m.feed = n.feed
  /-- Its transaction holds what belongs to it. -/
  sound : stage.Sound n.id c
  /-- Its number is new. -/
  number : ∀ id, stage.number? = some id → n.server.nextEventId ≤ id ∧ id < m.server.nextEventId
  /-- Its session is from the pool. -/
  taken : ∀ p, stage = .taken p → p ∈ n.idle ∨ p = .outside
  /-- The tables are changed only when it is committed. -/
  tables : (m.server.tables = n.server.tables ∧ ∀ u, stage ≠ .ended (.ok u)) ∨
    ∃ id : Nat, stage = .ended (.ok (.ofConfig c id)) ∧ n.server.nextEventId ≤ id ∧
      id < m.server.nextEventId ∧
      m.server.tables = n.server.tables.putEvent (rowOf (.ofConfig c id))

/-- An announcement that is on its way has changed no table. -/
theorem Progress.same (h : Progress t c n stage m) (hgoing : ∀ r, stage ≠ .ended r) :
  m.server.tables = n.server.tables
  := by
  obtain ⟨same, -⟩ | ⟨id, hstage, -⟩ := h.tables
  · apply same
  · apply absurd hstage (hgoing _)

/-- A statement that changes no table brings an announcement on, if it is not committed by it. -/
theorem Progress.quiet {server : Server} {gaveUp : Bool} (h : Progress t c n stage m)
    (hgoing : ∀ r, stage ≠ .ended r) (sound : stage'.Sound n.id c)
    (tables : server.tables = m.server.tables) (after : m.server.After server)
    (number : ∀ id, stage'.number? = some id →
      n.server.nextEventId ≤ id ∧ id < server.nextEventId)
    (taken : ∀ p, stage' ≠ .taken p) (uncommitted : ∀ u, stage' ≠ .ended (.ok u)) :
  Progress t c n stage' { m with server, gaveUp }
  := { h with
    later := h.later.trans after
    sound := sound
    number := number
    taken := fun p hp => absurd hp (taken p)
    tables := .inl ⟨tables.trans (h.same hgoing), uncommitted⟩ }

/-- The next statement brings an announcement on. -/
theorem Progress.step (h : Progress t c n stage m) (hgoing : ∀ r, stage ≠ .ended r)
    (hs : Step n.id t c m stage (stage', m')) :
  Progress t c n stage' m'
  := by
  have same := h.same hgoing
  have sound := hs.sound h.sound
  cases hs with
  | begins tables after =>
      apply h.quiet hgoing sound tables after
      · rintro id ⟨⟩
      · rintro p ⟨⟩
      · rintro u ⟨⟩
  | @records x id server gaveUp number given tables after =>
      have hle := h.later.ids
      apply h.quiet hgoing sound tables after
      · rintro _ ⟨⟩
        rw [number] at hle
        exact ⟨hle, given⟩
      · rintro p ⟨⟩
      · rintro u ⟨⟩
  | notifies tables after =>
      apply h.quiet hgoing sound tables after
      · intro id hid
        obtain ⟨hle, hlt⟩ := h.number id hid
        exact ⟨hle, Int.lt_of_lt_of_le hlt after.ids⟩
      · rintro p ⟨⟩
      · rintro u ⟨⟩
  | @commits x u server gaveUp tables after =>
      cases h.sound with
      | @notified start id =>
          obtain ⟨hle, hlt⟩ := h.number id rfl
          obtain ⟨-, htables⟩ := Tables.of_applyAll_singleton tables
          rw [same] at htables
          exact { h with
            later := h.later.trans after
            left := h.left.concat .outside
            sound := sound
            number := by rintro id ⟨⟩
            taken := by rintro p ⟨⟩
            tables := .inr ⟨id, rfl, hle, Int.lt_of_lt_of_le hlt after.ids, htables⟩ }
  | @fails _ e p server gaveUp tables after returned =>
      have hquiet : Progress t c n (.ended (.error e)) { m with server, gaveUp } := by
        apply h.quiet hgoing sound tables after
        · rintro id ⟨⟩
        · rintro p ⟨⟩
        · rintro u ⟨⟩
      exact { hquiet with left := h.left.concat (returned.of_later same h.later h.taken) }

/-- The next statement brings an announcement on, and what is over stays so. -/
theorem Progress.advance (h : Progress t c n stage m) :
  Progress t c n (advance n.id t c stage m).1 (advance n.id t c stage m).2
  := by
  obtain ⟨r, rfl⟩ | hgoing := stage.ended_or_going
  · apply h
  · apply h.step hgoing
    apply step_advance h.sound.inTransaction hgoing

/-- An announcement is brought on from its beginning. -/
theorem progress_startSending (t : Token) (c : ServerConfig) (n : Node) :
  Progress t c n (startSending t n).1 (startSending t n).2
  := by
  obtain ⟨idle, hidle, ⟨e, h⟩ | ⟨p, hp, h⟩⟩ := startSending_cases t n
  · rw [h]
    exact {
      id := rfl
      listeners := rfl
      isOpen := rfl
      later := .refl _
      left := leaves_of_subset hidle
      feed := rfl
      sound := .ended _
      number := by rintro id ⟨⟩
      taken := by rintro p ⟨⟩
      tables := .inl ⟨rfl, by rintro u ⟨⟩⟩ }
  · rw [h]
    exact {
      id := rfl
      listeners := rfl
      isOpen := rfl
      later := .refl _
      left := leaves_of_subset hidle
      feed := rfl
      sound := .taken _
      number := by rintro id ⟨⟩
      taken := by
        rintro p ⟨⟩
        apply hp
      tables := .inl ⟨rfl, by rintro u ⟨⟩⟩ }

/-- An announcement is brought to its end. -/
theorem progress_sendUpdate (t : Token) (c : ServerConfig) (n : Node) :
  Progress t c n (.ended (sendUpdate n.id t c n).1) (sendUpdate n.id t c n).2
  := by
  have h := (progress_startSending t c n).advance.advance.advance.advance
  have hsend := sendUpdate_eq n.id t c n
  simp only [bind_apply] at hsend
  rw [hsend] at h
  apply h

/-- Without listeners nothing is relayed. -/
theorem settle_of_alone (h : n.listeners = 0) :
  settle n = ((), { n with arrived := [] })
  := by
  have hnone : (n.arrived.flatMap fun payload => List.replicate n.listeners payload) = [] := by
    rw [h]
    simp
  change ((), { n with
    arrived := []
    feed := (n.arrived.flatMap fun payload => List.replicate n.listeners payload).foldl
      (relay n.id) n.feed }) = _
  rw [hnone]
  rfl

/-- What comes of announcing a configuration at a node to which nobody listens. -/
inductive Announces (t : Token) (c : ServerConfig) (n : Node) :
    Except AnnounceFailure Unit × Node → Prop
  /-- It fails, and nothing is recorded or published. -/
  | fails {e : AnnounceFailure} {m : Node} (spares : Spares t n m) : Announces t c n (.error e, m)
  /-- It is recorded under a new number and published. -/
  | announces {id : Nat} {m : Node} (keeps : Keeps t n m)
    (feed : m.feed = (n.feed.publish (.ofConfig c id)).2) (new : n.server.nextEventId ≤ id)
    (given : id < m.server.nextEventId)
    (tables : m.server.tables = n.server.tables.putEvent (rowOf (.ofConfig c id))) :
    Announces t c n (.ok (), m)

/-- Announcing does one of these. -/
theorem announces_announce (t : Token) (c : ServerConfig) (h : n.listeners = 0) :
  Announces t c n (announce t c n)
  := by
  have hp := progress_sendUpdate t c n
  rw [announce, bind_apply, get_apply]
  dsimp only
  rw [bind_apply]
  generalize sendUpdate n.id t c n = r at hp ⊢
  obtain ⟨result, m⟩ := r
  cases result with
  | error e =>
      obtain ⟨same, -⟩ | ⟨id, ⟨⟩, -⟩ := hp.tables
      exact Announces.fails { hp.toKeeps with feed := hp.feed, tables := same }
  | ok u =>
      obtain ⟨-, hgoing⟩ | ⟨id, ⟨⟩, new, given, tables⟩ := hp.tables
      · apply absurd rfl (hgoing u)
      · have hl : { m with feed := (m.feed.publish (.ofConfig c id)).2 }.listeners = 0 :=
          hp.listeners.trans h
        simp only [bind_apply, modify_apply, settle_of_alone hl]
        apply Announces.announces
        · exact { hp.toKeeps with id := hp.id }
        · dsimp only
          rw [hp.feed]
        · apply new
        · apply given
        · apply tables

end Node

end ApiIntake.Database
