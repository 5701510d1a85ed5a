import ApiIntake.Proofs.Database.Cluster
import Mathlib.Data.List.Perm.Basic

/-!
# The numbers of events

An event is numbered when it is recorded, and becomes visible when its transaction commits.
Numbers are positive and given in order, and none is given twice (`Cluster.counted_act`); but
what has a later number may be committed earlier.
-/

namespace ApiIntake.Database

open ApiIntake.Feed (Update)

/-! ### Numbers that were given -/

/-- Positive numbers below the next one, each once. -/
structure Numbered (next : Int) (ids : List Int) : Prop where
  /-- Each stands there once. -/
  distinct : ids.Nodup
  /-- They are positive and below the next one. -/
  bounded : ∀ id ∈ ids, 0 < id ∧ id < next

namespace Numbered

variable {next next' : Int} {ids ids' : List Int}

/-- The order of the numbers does not matter. -/
theorem perm (h : Numbered next ids) (hp : ids'.Perm ids) :
  Numbered next ids'
  := by
  constructor
  · apply hp.nodup_iff.mpr h.distinct
  · intro id hid
    apply h.bounded id (hp.mem_iff.mp hid)

/-- Numbers may be dropped. -/
theorem sublist (h : Numbered next ids) (hs : ids'.Sublist ids) :
  Numbered next ids'
  := by
  constructor
  · apply h.distinct.sublist hs
  · intro id hid
    apply h.bounded id (hs.subset hid)

/-- Numbers may be passed over. -/
theorem mono (h : Numbered next ids) (hle : next ≤ next') :
  Numbered next' ids
  := by
  constructor
  · apply h.distinct
  · intro id hid
    obtain ⟨hpos, hlt⟩ := h.bounded id hid
    exact ⟨hpos, by omega⟩

/-- The next number can be given. -/
theorem cons (h : Numbered next ids) (hpos : 0 < next) :
  Numbered (next + 1) (next :: ids)
  := by
  constructor
  · apply List.nodup_cons.mpr
    use fun hmem => Int.lt_irrefl next (h.bounded next hmem).2
    apply h.distinct
  · intro id hid
    obtain rfl | hid := List.mem_cons.mp hid
    · exact ⟨hpos, by omega⟩
    · obtain ⟨hpos, hlt⟩ := h.bounded id hid
      exact ⟨hpos, by omega⟩

end Numbered

/-! ### The number of an announcement -/

variable {origin : String} {t : Token} {c : ServerConfig} {n n' : Node} {stage stage' : Stage}

/-- A step gives an announcement the next number, takes its number away or brings it into the
table, and takes none from others. -/
theorem Node.Step.numbered (h : Step origin t c n stage (stage', n'))
    (hs : stage.Sound origin c) (rest : List Int) (hpos : 0 < n.server.nextEventId)
    (hn : Numbered n.server.nextEventId
      (n.server.tables.numbers ++ (stage.number?.toList ++ rest))) :
  Numbered n'.server.nextEventId (n'.server.tables.numbers ++ (stage'.number?.toList ++ rest))
  := by
  cases h with
  | begins tables after =>
      dsimp only
      rw [tables]
      apply hn.mono after.ids
  | @records x id server gaveUp number given tables after =>
      dsimp only
      rw [tables]
      have hnext := hn.cons hpos
      rw [number] at hnext
      apply (hnext.perm _).mono given
      apply List.perm_middle
  | notifies tables after =>
      dsimp only
      rw [tables]
      apply hn.mono after.ids
  | commits tables after =>
      cases hs with
      | @notified start id =>
          obtain ⟨hallowed, htables⟩ := Tables.of_applyAll_singleton tables
          obtain ⟨hnew, -⟩ := Tables.refusal?_event_iff.mp hallowed
          dsimp only
          rw [htables, Tables.apply, Tables.putEvent_of_notMem hnew, Tables.numbers,
            List.map_append, List.append_assoc]
          apply hn.mono after.ids
  | fails tables after =>
      dsimp only
      rw [tables]
      apply (hn.sublist _).mono after.ids
      apply List.Sublist.append_left
      apply List.sublist_append_right

/-! ### Numbers in a cluster -/

namespace Cluster

variable {k : Cluster} {i : Nat} {s : Sending}

/-- The numbers of the announcements that are on their way. -/
def numbers (sendings : List Sending) : List Int := sendings.filterMap fun s => s.stage.number?

/-- In a cluster, all events have numbers of their own, whether they are committed or not. -/
structure Counted (k : Cluster) : Prop where
  /-- Numbers begin above zero. -/
  positive : 0 < k.server.nextEventId
  /-- They are given once. -/
  numbered : Numbered k.server.nextEventId (k.server.tables.numbers ++ numbers k.sendings)

/-- The number of an announcement stands before those of the others. -/
theorem numbers_cons (s : Sending) (sendings : List Sending) :
  numbers (s :: sendings) = s.stage.number?.toList ++ numbers sendings
  := by
  rw [numbers, List.filterMap_cons]
  cases s.stage.number? <;> rfl

/-- The numbers of the announcements are that of one of them and those of the others. -/
theorem numbers_split {sendings : List Sending} (hs : sendings[i]? = some s) :
  (s.stage.number?.toList ++ numbers (sendings.eraseIdx i)).Perm (numbers sendings)
  := by
  obtain ⟨hlt, rfl⟩ := List.getElem?_eq_some_iff.mp hs
  rw [← numbers_cons]
  apply (List.getElem_cons_eraseIdx_perm hlt).filterMap

/-- The numbers of the announcements when one of them has come to another stage; what is over has
none. -/
theorem numbers_bring {sendings : List Sending} (hs : sendings[i]? = some s) (stage : Stage) :
  (numbers (bring sendings i s stage)).Perm
    (stage.number?.toList ++ numbers (sendings.eraseIdx i))
  := by
  obtain ⟨r, rfl⟩ | hgoing := stage.ended_or_going
  · apply List.Perm.refl
  · have hlt := (List.getElem?_eq_some_iff.mp hs).1
    rw [bring_of_going hgoing, ← numbers_cons { s with stage }]
    apply (List.set_perm_cons_eraseIdx hlt _).filterMap

/-- Only announcing numbers events or records them. -/
theorem server_act (k : Cluster) {a : Act} (hcall : ∀ place t c, a ≠ .call place t c)
    (hproceed : ∀ i, a ≠ .proceed i) :
  (act a k).2.server.tables = k.server.tables ∧
    k.server.nextEventId ≤ (act a k).2.server.nextEventId
  := by
  cases a with
  | call place t c => apply absurd rfl (hcall place t c)
  | proceed i => apply absurd rfl (hproceed i)
  | inject payload => exact ⟨rfl, Int.le_refl _⟩
  | deliver place i =>
      obtain h | ⟨_, _, -, -, h⟩ := act_deliver k place i
      · rw [h]
        exact ⟨rfl, Int.le_refl _⟩
      · rw [h]
        exact ⟨rfl, Int.le_refl _⟩
  | replay place after limit =>
      obtain h | ⟨_, _, _, -, hreads, h⟩ := act_replay k place after limit
      · rw [h]
        exact ⟨rfl, Int.le_refl _⟩
      · rw [h]
        obtain ⟨tables, later⟩ := hreads.server
        exact ⟨tables, later.ids⟩
  | fail fault => exact ⟨rfl, Int.le_refl _⟩

/-- What does not announce gives no number. -/
theorem Counted.idle (h : k.Counted) {a : Act} (hcall : ∀ place t c, a ≠ .call place t c)
    (hproceed : ∀ i, a ≠ .proceed i) :
  (act a k).2.Counted
  := by
  obtain ⟨tables, ids⟩ := server_act k hcall hproceed
  constructor
  · have hpos := h.positive
    omega
  · rw [tables, sendings_act k hcall hproceed]
    apply h.numbered.mono ids

/-- An announcement that has begun has no number yet. -/
theorem Counted.call (h : k.Counted) (place : Nat) (t : Token) (c : ServerConfig) :
  (act (.call place t c) k).2.Counted
  := by
  obtain hc | ⟨n, idle, -, -, reply, sendings, hc, hreply⟩ := act_call k place t c
  · rw [hc]
    apply h
  · rw [hc]
    use h.positive
    obtain ⟨_, -, rfl⟩ | ⟨p, -, -, rfl⟩ := hreply
    · apply h.numbered
    · have hn : numbers (k.sendings ++ [⟨place, t, c, .taken p⟩]) = numbers k.sendings := by
        rw [numbers, List.filterMap_append]
        apply List.append_nil
      dsimp only
      rw [hn]
      apply h.numbered

/-- An announcement that goes on is given the next number or none. -/
theorem Counted.proceed (hk : k.Sound) (h : k.Counted) (i : Nat) :
  (act (.proceed i) k).2.Counted
  := by
  obtain hp | ⟨s, n, stage, n', hs, -, hsound, hstep, hp⟩ := act_proceed hk i
  · rw [hp]
    apply h
  · have hle : k.server.nextEventId ≤ n'.server.nextEventId := hstep.frame.2.2.2.ids
    have hafter := hstep.numbered hsound (numbers (k.sendings.eraseIdx i)) h.positive
      (h.numbered.perm ((numbers_split hs).append_left _))
    rw [hp]
    constructor
    · apply Int.lt_of_lt_of_le h.positive hle
    · apply hafter.perm ((numbers_bring hs stage).append_left _)

/-- Whatever happens, no number is given twice. -/
theorem counted_act (hk : k.Sound) (h : k.Counted) (a : Act) :
  (act a k).2.Counted
  := by
  cases a with
  | call place t c => apply h.call
  | proceed i => apply h.proceed hk
  | inject payload => apply h.idle (by rintro _ _ _ ⟨⟩) (by rintro _ ⟨⟩)
  | deliver place i => apply h.idle (by rintro _ _ _ ⟨⟩) (by rintro _ ⟨⟩)
  | replay place after limit => apply h.idle (by rintro _ _ _ ⟨⟩) (by rintro _ ⟨⟩)
  | fail fault => apply h.idle (by rintro _ _ _ ⟨⟩) (by rintro _ ⟨⟩)

/-- Only an announcement that goes on is committed. -/
theorem Change.of_committed {a : Act} {r : Reply × Cluster} {u : Update} (h : Change k a r)
    (hu : r.1.committed? = some u) :
  ∃ i, a = .proceed i
  := by
  cases h with
  | nothing quiet =>
      rw [quiet] at hu
      cases hu
  | injected => cases hu
  | delivered => cases hu
  | @committed i => exact ⟨i, rfl⟩

/-- Only what is committed is recorded. -/
theorem Change.recorded {a : Act} {r : Reply × Cluster} (h : Change k a r) :
  r.2.server.tables = (r.1.committed?.toList.map rowOf).foldl Tables.putEvent k.server.tables
  := by
  cases h with
  | nothing quiet tables =>
      dsimp only
      rw [quiet, tables]
      rfl
  | injected tables => apply tables
  | delivered _ _ tables => apply tables
  | committed _ _ _ tables => apply tables

/-- What is committed has a number that no other event has, and its configuration is there. -/
theorem Change.known {a : Act} {r : Reply × Cluster} {u : Update} (h : Change k a r)
    (hu : r.1.committed? = some u) :
  (u.eventId : Int) ∉ k.server.tables.numbers ∧
    ∃ row ∈ k.server.tables.configs, row.name = u.name
  := by
  cases h with
  | nothing quiet =>
      rw [quiet] at hu
      cases hu
  | injected => cases hu
  | delivered => cases hu
  | committed _ new known =>
      cases hu
      exact ⟨new, known⟩

/-- What is committed has a positive number. -/
theorem Counted.of_committed (hk : k.Sound) (h : k.Counted) {a : Act} {u : Update}
    (hu : (act a k).1.committed? = some u) :
  0 < u.eventId
  := by
  obtain ⟨i, rfl⟩ := (change_act hk a).of_committed hu
  obtain hp | ⟨s, n, stage, n', hs, -, -, hstep, hp⟩ := act_proceed hk i
  · rw [hp] at hu
    cases hu
  · have hstage : s.stage.number? = some (u.eventId : Int) := by
      rw [hp] at hu
      generalize s.stage = before at hstep
      cases hstep with
      | begins => cases hu
      | records => cases hu
      | notifies => cases hu
      | commits =>
          cases hu
          rfl
      | fails => cases hu
    have hmem : (u.eventId : Int) ∈ numbers k.sendings := by
      apply List.mem_filterMap.mpr
      exact ⟨s, List.mem_of_getElem? hs, hstage⟩
    have hpos := (h.numbered.bounded _ (List.mem_append_right _ hmem)).1
    omega

end Cluster

end ApiIntake.Database
