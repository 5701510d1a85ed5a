import ApiIntake.Proofs.Database.Agreement
import ApiIntake.Proofs.Database.Announcing
import ApiIntake.Proofs.Feed.Broadcast
import Mathlib.Data.List.Nodup

/-!
# What a node records

The events of a database to which one node announces are those of what the node has published,
under increasing numbers, and its configurations have names of their own (`Tables.Records`).  This
stays so whatever fails and whenever callers give up: a call keeps it (`Logged.spares`), or stores
a configuration (`Logged.create`), or records and publishes an announcement (`Logged.announce`).
A session that was left inside a transaction sees what was recorded when it was begun, or later.
-/

namespace ApiIntake.Database

open ApiIntake.Feed (Update Broadcast)
open ApiIntake.Store (StoreFailure)

/-! ### What is recorded -/

namespace Tables

/-- The tables hold configurations under names of their own, and the events of announcements of
these in the order of their numbers. -/
structure Records (t : Tables) (updates : List Update) : Prop where
  /-- The events are those of the announcements. -/
  events : t.events = updates.map rowOf
  /-- They stand in the order of their numbers. -/
  ordered : updates.Pairwise fun u v => u.eventId < v.eventId
  /-- The numbers are positive. -/
  positive : ∀ u ∈ updates, 0 < u.eventId
  /-- The rows are those of configurations. -/
  rows : ∀ row ∈ t.configs, ∃ c, row = .ofConfig c
  /-- They have names of their own. -/
  names : (t.configs.map ConfigRow.name).Nodup
  /-- What was announced is there. -/
  known : ∀ u ∈ updates, ∃ c, .ofConfig c ∈ t.configs ∧ u = .ofConfig c u.eventId

variable {t : Tables} {updates : List Update} {c : ServerConfig}

namespace Records

/-- A configuration that is there is found under its name. -/
theorem config?_eq (h : t.Records updates) (hc : .ofConfig c ∈ t.configs) :
  t.config? c.name = some (.ofConfig c)
  := by
  have hthere : ∃ row ∈ t.configs, row.name = c.name := ⟨.ofConfig c, hc, rfl⟩
  obtain ⟨row, hrow⟩ := exists_config? hthere
  have hname : row.name = c.name := by simpa using List.find?_some hrow
  have hmem : row ∈ t.configs := List.mem_of_find?_eq_some hrow
  rw [hrow, List.inj_on_of_nodup_map h.names hmem hc hname]

/-- What was announced is told as it was. -/
theorem retold_eq (h : t.Records updates) {u : Update} (hu : u ∈ updates) :
  t.retold u = u
  := by
  obtain ⟨c, hc, hu⟩ := h.known u hu
  have hconfig : t.config? (Update.ofConfig c u.eventId).name = some (.ofConfig c) :=
    h.config?_eq hc
  rw [hu, retold, hconfig]
  rfl

/-- All that was announced is told. -/
theorem told_eq (h : t.Records updates) (limit : Nat) (large : updates.length ≤ limit) :
  t.told 0 limit = .ok updates
  := by
  have hsorted : inOrder updates = updates := by
    apply List.mergeSort_of_pairwise
    apply h.ordered.imp
    intro u v hlt
    exact decide_eq_true (Nat.le_of_lt hlt)
  have hall : (updates.filter fun u => 0 < u.eventId) = updates := by
    apply List.filter_eq_self.mpr
    intro u hu
    exact decide_eq_true (h.positive u hu)
  have hretold : updates.map t.retold = updates := by
    apply (List.map_congr_left fun u hu => h.retold_eq hu).trans
    apply List.map_id
  rw [Tables.told_eq h.events, hsorted, hall, List.take_of_length_le large, hretold]
  intro u hu
  obtain ⟨c, hc, hu⟩ := h.known u hu
  use .ofConfig c, hc
  rw [hu]
  rfl

/-- Empty tables record nothing. -/
theorem empty :
  Records .empty []
  := by
  constructor
  · rfl
  · apply List.Pairwise.nil
  · rintro u ⟨⟩
  · rintro row ⟨⟩
  · apply List.nodup_nil
  · rintro u ⟨⟩

/-- A configuration with a new name is put behind the others. -/
theorem putConfig (h : t.Records updates) (new : t.config? c.name = none) :
  (t.putConfig (.ofConfig c)).Records updates
  := by
  rw [putConfig_of_new new]
  constructor
  · apply h.events
  · apply h.ordered
  · apply h.positive
  · intro row hrow
    obtain hrow | hrow := List.mem_append.mp hrow
    · apply h.rows row hrow
    · exact ⟨c, List.mem_singleton.mp hrow⟩
  · dsimp only
    rw [List.map_append]
    apply List.nodup_append.mpr
    use h.names, List.nodup_singleton _
    rintro name hname _ hnew rfl
    obtain ⟨row, hrow, rfl⟩ := List.mem_map.mp hname
    have hname : row.name = c.name := List.mem_singleton.mp hnew
    apply List.find?_eq_none.mp new row hrow
    exact decide_eq_true hname
  · intro u hu
    obtain ⟨d, hd, hu⟩ := h.known u hu
    exact ⟨d, List.mem_append_left _ hd, hu⟩

/-- A higher number is new. -/
theorem notMem_numbers (h : t.Records updates) {id : Nat}
    (last : ∀ u ∈ updates, u.eventId < id) :
  (id : Int) ∉ t.numbers
  := by
  rw [numbers, h.events, List.map_map]
  intro hmem
  obtain ⟨u, hu, hid⟩ := List.mem_map.mp hmem
  have hlt := last u hu
  have heq : (u.eventId : Int) = id := hid
  omega

/-- The event of an announcement with a higher number is not refused. -/
theorem refusal?_eq_none (h : t.Records updates) (hc : .ofConfig c ∈ t.configs) {id : Nat}
    (last : ∀ u ∈ updates, u.eventId < id) :
  t.refusal? (.event (rowOf (.ofConfig c id))) = none
  := by
  apply refusal?_event_iff.mpr
  use h.notMem_numbers last
  exact isSome_config?_iff.mpr ⟨.ofConfig c, hc, rfl⟩

/-- The event of an announcement with a higher number is put behind the others. -/
theorem putEvent (h : t.Records updates) (hc : .ofConfig c ∈ t.configs) {id : Nat}
    (positive : 0 < id) (last : ∀ u ∈ updates, u.eventId < id) :
  (t.putEvent (rowOf (.ofConfig c id))).Records (updates ++ [.ofConfig c id])
  := by
  have hnew : (rowOf (.ofConfig c id)).id ∉ t.numbers := h.notMem_numbers last
  rw [putEvent_of_notMem hnew]
  constructor
  · dsimp only
    rw [h.events, List.map_append]
    rfl
  · apply List.pairwise_append.mpr
    use h.ordered, List.pairwise_singleton _ _
    intro u hu v hv
    rw [List.mem_singleton.mp hv]
    apply last u hu
  · intro u hu
    obtain hu | hu := List.mem_append.mp hu
    · apply h.positive u hu
    · rw [List.mem_singleton.mp hu]
      apply positive
  · apply h.rows
  · apply h.names
  · intro u hu
    obtain hu | hu := List.mem_append.mp hu
    · apply h.known u hu
    · rw [List.mem_singleton.mp hu]
      exact ⟨c, hc, rfl⟩

end Records

end Tables

/-! ### What a node has published -/

/-- What is published is recorded, and what the sessions of the pool see was recorded before.  If
callers are patient, all of them are outside of transactions; if it is safe, nothing is told to
fail, and none of them is inside an aborted one. -/
structure Logged (regime : Regime) (feed : Broadcast) (patient safe : Prop)
    (published : List Update) (n : Node) : Prop where
  /-- Transactions are run as always. -/
  regime : n.server.regime = regime
  /-- The feed was given what is published. -/
  feed : n.feed = feed.publishAll published
  /-- Nobody listens to notifications. -/
  listeners : n.listeners = 0
  /-- The pool is open. -/
  isOpen : n.isOpen = true
  /-- What is published is recorded. -/
  records : n.server.tables.Records published
  /-- Numbers are positive. -/
  positive : 0 < n.server.nextEventId
  /-- The next one is higher than those of what is published. -/
  below : ∀ u ∈ published, (u.eventId : Int) < n.server.nextEventId
  /-- Where a session was left inside a transaction, it was begun when something was recorded. -/
  starts : ∀ start aborted, .inside start aborted ∈ n.idle → ∃ earlier, earlier <+: published ∧
    start.Records earlier ∧ start.configs ⊆ n.server.tables.configs
  /-- There is none if callers are patient. -/
  outside : patient → ∀ p ∈ n.idle, p = .outside
  /-- None is aborted if it is safe, nor will any be. -/
  live : safe → n.server.faults = [] ∧ ∀ p ∈ n.idle, p.session.isAborted = false

namespace Logged

variable {regime : Regime} {feed : Broadcast} {patient safe : Prop} {published : List Update}
  {n m : Node} {t : Token} {c : ServerConfig}

/-- What a session sees was recorded before, and its configurations are there. -/
theorem view (h : Logged regime feed patient safe published n) {p : Pooled}
    (hp : p ∈ n.idle ∨ p = .outside) :
  ∃ earlier, earlier <+: published ∧ (n.server.view p.session).Records earlier ∧
    (n.server.view p.session).configs ⊆ n.server.tables.configs
  := by
  cases p with
  | outside => exact ⟨published, List.prefix_refl _, h.records, List.Subset.refl _⟩
  | inside start aborted =>
      obtain hview | hview := Server.view_inside n.server start aborted
      · rw [hview]
        exact ⟨published, List.prefix_refl _, h.records, List.Subset.refl _⟩
      · obtain hp | ⟨⟨⟩⟩ := hp
        rw [hview]
        apply h.starts start aborted hp

/-- Whatever sessions a call leaves inside transactions, these were begun when something was
recorded. -/
theorem starts_of_leaves (h : Logged regime feed patient safe published n) {idle : List Pooled}
    (left : Node.Leaves t n idle) {start : Tables} {aborted : Bool}
    (hmem : .inside start aborted ∈ idle) :
  ∃ earlier, earlier <+: published ∧ start.Records earlier ∧
    start.configs ⊆ n.server.tables.configs
  := by
  obtain ⟨before, hmem⟩ | rfl := (left _ hmem).start_of_inside
  · apply h.starts start before hmem
  · exact ⟨published, List.prefix_refl _, h.records, List.Subset.refl _⟩

/-- What is published stays recorded if a call takes no number back, publishes more or not, and
changes the tables to such as record it. -/
theorem keeps (h : Logged regime feed patient safe published n) (k : Node.Keeps t n m)
    (ht : patient → t.cancelAt ≠ some .begin) {published' : List Update}
    (longer : published <+: published') (given : m.feed = feed.publishAll published')
    (records : m.server.tables.Records published')
    (below : ∀ u ∈ published', (u.eventId : Int) < m.server.nextEventId)
    (more : n.server.tables.configs ⊆ m.server.tables.configs) :
  Logged regime feed patient safe published' m
  := by
  constructor
  · rw [k.later.regime, h.regime]
  · apply given
  · rw [k.listeners, h.listeners]
  · rw [k.isOpen, h.isOpen]
  · apply records
  · apply Int.lt_of_lt_of_le h.positive k.later.ids
  · apply below
  · intro start aborted hmem
    obtain ⟨earlier, hearlier, hrecords, hsub⟩ := h.starts_of_leaves k.left hmem
    exact ⟨earlier, hearlier.trans longer, hrecords, List.Subset.trans hsub more⟩
  · intro hpatient p hp
    exact (k.left p hp).outside_of_patient (ht hpatient) (h.outside hpatient)
  · intro hsafe
    obtain ⟨hnone, hlive⟩ := h.live hsafe
    use List.eq_nil_of_subset_nil (hnone ▸ k.later.faults)
    intro p hp
    exact (k.left p hp).live_of_safe hnone hlive

/-- What is published has lower numbers than what will be. -/
theorem below_later (h : Logged regime feed patient safe published n) (k : Node.Keeps t n m) :
  ∀ u ∈ published, (u.eventId : Int) < m.server.nextEventId
  := fun u hu => Int.lt_of_lt_of_le (h.below u hu) k.later.ids

/-- A call that changes nothing keeps what is published recorded. -/
theorem spares (h : Logged regime feed patient safe published n) (hs : Node.Spares t n m)
    (ht : patient → t.cancelAt ≠ some .begin) :
  Logged regime feed patient safe published m
  := by
  apply h.keeps hs.toKeeps ht (List.prefix_refl _)
  · rw [hs.feed, h.feed]
  · rw [hs.tables]
    apply h.records
  · apply h.below_later hs.toKeeps
  · rw [hs.tables]
    apply List.Subset.refl

/-- A configuration that is stored is there. -/
theorem create (h : Logged regime feed patient safe published n)
    (ht : patient → t.cancelAt ≠ some .begin) {result : Except StoreFailure Unit}
    (created : Node.create t c n = (result, m)) :
  Logged regime feed patient safe published m ∧
    (result = .ok () → .ofConfig c ∈ m.server.tables.configs)
  := by
  have hr := Node.stores_create t c n
  rw [created] at hr
  cases hr with
  | fails spares =>
      use h.spares spares ht
      rintro ⟨⟩
  | stores k same new tables =>
      have hput : n.server.tables.putConfig (.ofConfig c) = _ := Tables.putConfig_of_new new
      constructor
      · apply h.keeps k ht (List.prefix_refl _)
        · rw [same, h.feed]
        · rw [tables]
          apply h.records.putConfig new
        · apply h.below_later k
        · rw [tables, hput]
          apply List.subset_append_left
      · intro _
        rw [tables, hput]
        apply List.mem_append_right _ (List.mem_singleton_self _)

/-- A configuration that is found is there. -/
theorem lookUp (h : Logged regime feed patient safe published n) {name : String}
    {result : Except StoreFailure (Option ServerConfig)} (got : Node.lookUp name n = (result, m)) :
  Logged regime feed patient safe published m ∧
    ∀ c, result = .ok (some c) → .ofConfig c ∈ m.server.tables.configs
  := by
  have hr := Node.finds_lookUp name n
  rw [got] at hr
  cases hr with
  | nothing quiet spares =>
      use h.spares spares (by rintro _ ⟨⟩)
      intro c hc
      apply absurd hc (quiet c)
  | @found c row _ seen read spares =>
      use h.spares spares (by rintro _ ⟨⟩)
      rintro _ ⟨⟩
      obtain ⟨earlier, -, hrecords, hsub⟩ := h.view n.next_mem
      have hrow := List.mem_of_find?_eq_some seen
      obtain ⟨d, rfl⟩ := hrecords.rows row hrow
      rw [toConfig?_ofConfig] at read
      split at read
      · cases read
        rw [spares.tables]
        apply hsub hrow
      · cases read

/-- A configuration that is there is announced under a new number, or nothing is changed. -/
theorem announce (h : Logged regime feed patient safe published n)
    (ht : patient → t.cancelAt ≠ some .begin) (hc : .ofConfig c ∈ n.server.tables.configs)
    {result : Except Feed.AnnounceFailure Unit}
    (announced : Node.announce t c n = (result, m)) :
  (∃ e, result = .error e) ∧ Logged regime feed patient safe published m ∨
    result = .ok () ∧ ∃ id, Logged regime feed patient safe (published ++ [.ofConfig c id]) m
  := by
  have hr := Node.announces_announce t c h.listeners
  rw [announced] at hr
  cases hr with
  | @fails e _ spares =>
      left
      use ⟨e, rfl⟩
      apply h.spares spares ht
  | @announces id _ k same new given tables =>
      right
      use rfl, id
      have hpos := h.positive
      have hlast : ∀ u ∈ published, u.eventId < id := by
        intro u hu
        have hlt := h.below u hu
        omega
      apply h.keeps k ht (List.prefix_append _ _)
      · rw [same, h.feed, Broadcast.publishAll_concat]
      · rw [tables]
        exact h.records.putEvent hc (by omega) hlast
      · intro u hu
        obtain hu | hu := List.mem_append.mp hu
        · apply h.below_later k u hu
        · rw [List.mem_singleton.mp hu]
          apply given
      · rw [tables]
        apply List.Subset.refl

end Logged

end ApiIntake.Database
