import ApiIntake.Proofs.Import.Station
import ApiIntake.Proofs.Store.Catalog

/-!
# What announcements say

A subscriber gets no more than the name, the place and the hash of a configuration, and
loads the rest itself.  So an announcement has to name a configuration that is there, now
and for ever, with that place and that hash: it describes the catalog
(`Update.Describes`).

To speak of the announcements of a run, the process keeps a log of them (`Logged`), each
with the catalog at the moment of announcing.  The log changes nothing.  Its invariant is
`Logged.Sound`, and `announcements_describe_catalog` is what it gives for all runs.
-/

namespace ApiIntake

open ApiIntake.Store (StoreFailure Catalog)
open ApiIntake.Feed (AnnounceFailure Broadcast Update)

/-! ### Descriptions -/

/-- The configuration that an announcement names is in a catalog, with the place and the
hash that are announced. -/
def Feed.Update.Describes (u : Update) (k : Catalog) : Prop :=
  ∃ c, k.get? u.name = some c ∧
    c.tenant = u.tenant ∧ c.pathPrefix = u.pathPrefix ∧ c.digest = u.configHash

/-- The announcement of a configuration describes the catalogs that have it. -/
theorem Feed.Update.describes_ofConfig {k : Catalog} {c : ServerConfig}
    (h : k.get? c.name = some c) (eventId : Nat) :
  (Update.ofConfig c eventId).Describes k
  := by
  use c, h, rfl, rfl
  rfl

/-- A catalog is still described after another configuration was created. -/
theorem Feed.Update.Describes.create {u : Update} {k l : Catalog} {cancelled : Bool}
    {c : ServerConfig} (h : u.Describes k) (hl : k.create cancelled c = .ok l) :
  u.Describes l
  := by
  obtain ⟨d, hd, hu⟩ := h
  use d, Catalog.get?_of_create hl hd

namespace Import

/-! ### The log -/

/-- An announcement that was made. -/
structure Posting where
  /-- The announcement. -/
  update : Update
  /-- The catalog when it was made. -/
  catalog : Catalog

/-- What a single process keeps, and a log of its announcements. -/
structure Logged where
  /-- What is kept. -/
  site : Local
  /-- The announcements so far. -/
  postings : List Posting

namespace Logged

/-- Nothing is kept and nothing was announced yet. -/
def ofCapacity (capacity : Nat) : Logged := ⟨.ofCapacity capacity, []⟩

/-- The announcements of the log. -/
def updates (x : Logged) : List Update := x.postings.map Posting.update

/-- Stores a configuration; the log stays. -/
def create (cancelled : Bool) (c : ServerConfig) :
    StateM Logged (Except StoreFailure Unit) := fun x =>
  let (answer, site) := Local.create cancelled c x.site
  (answer, ⟨site, x.postings⟩)

/-- Announces a configuration and enters the announcement if it was made. -/
def announce (cancelled : Bool) (c : ServerConfig) :
    StateM Logged (Except AnnounceFailure Unit) := fun x =>
  let (answer, site) := Local.announce cancelled c x.site
  match answer with
  | .ok () =>
    (answer, ⟨site, x.postings ++ [⟨.ofConfig c x.site.feed.nextEventId, x.site.catalog⟩]⟩)
  | .error _ => (answer, ⟨site, x.postings⟩)

/-- A call that is not cancelled enters the announcement under the next number. -/
theorem announce_live (c : ServerConfig) (x : Logged) :
  announce false c x =
    (.ok (),
      { site :=
          { x.site with
            feed := (x.site.feed.takeEventId.2.publish (.ofConfig c x.site.feed.nextEventId)).2 }
        postings := x.postings ++ [⟨.ofConfig c x.site.feed.nextEventId, x.site.catalog⟩] })
  := rfl

/-- The workbench of a single process with a log. -/
def benchBy (convert : Destination → List UInt8 → Except ConvertError ServerConfig) :
    Workbench Bool Logged where
  convert destination document := pure (convert destination document)
  create := create
  get name := fun x => (.ok (x.site.catalog.get? name), x)
  list := fun x => (.ok x.site.catalog.toList, x)
  announce := announce

variable {convert : Destination → List UInt8 → Except ConvertError ServerConfig}
  {cancelled : Bool} {c : ServerConfig} {x y : Logged}

/-- The log changes nothing. -/
theorem benchBy_projects
    (convert : Destination → List UInt8 → Except ConvertError ServerConfig) :
  (benchBy convert).Projects (Local.benchBy convert) Logged.site
  := by
  constructor
  · rintro destination document x - - ⟨⟩
    rfl
  · rintro cancelled c x - - ⟨⟩
    rfl
  · rintro name x - - ⟨⟩
    rfl
  · intro cancelled c x a y hy
    cases cancelled with
    | true =>
        cases hy
        rfl
    | false =>
        cases hy
        rfl

/-- The station of a single process with a log. -/
def station (convert : Destination → List UInt8 → Except ConvertError ServerConfig) :
    Station Logged where
  bench := benchBy convert
  feed x := x.site.feed
  setFeed feed x := ⟨{ x.site with feed }, x.postings⟩

/-- What is kept at a run is the same without the log. -/
theorem map_site_history (capacity : Nat) (actions : List Action) :
  (history (station convert).act (ofCapacity capacity) actions).map (Turn.map Logged.site) =
    history (Station.ofLocal convert).act (Local.ofCapacity capacity) actions
  := by
  have h := Station.act_project (station convert) (Station.ofLocal convert) Logged.site
    (benchBy_projects convert) (fun _ => rfl) (fun _ _ => rfl)
  symm
  apply history_map h (ofCapacity capacity) actions

/-! ### The invariant -/

/-- The log tells all that can be read, each entry is true, and the numbers follow each
other, zero after the greatest one. -/
structure Sound (x : Logged) : Prop where
  /-- Whatever waits for a subscriber is in the log. -/
  holdsOnly : x.site.feed.HoldsOnly x.updates
  /-- What was announced was there when it was announced, and still is. -/
  describes : ∀ p ∈ x.postings, p.update.Describes p.catalog ∧ p.update.Describes x.site.catalog
  /-- The numbers of the entries follow each other, from one on. -/
  eventIds : x.updates.map Update.eventId =
    (List.range' 1 x.postings.length).map (· % Update.eventIdBound)
  /-- The number of the next entry follows them. -/
  nextEventId : x.site.feed.nextEventId = (1 + x.postings.length) % Update.eventIdBound

/-- The invariant holds before anything has happened. -/
theorem sound_ofCapacity (capacity : Nat) :
  (ofCapacity capacity).Sound
  := by
  constructor
  · apply Broadcast.holdsOnly_ofCapacity
  · rintro p ⟨⟩
  · rfl
  · rfl

/-- Storing keeps the invariant. -/
theorem Sound.create (h : x.Sound) (cancelled : Bool) (c : ServerConfig) :
  (Logged.create cancelled c x).2.Sound
  := by
  cases hk : x.site.catalog.create cancelled c with
  | error e =>
      simp only [Logged.create, Local.create, hk]
      apply h
  | ok k =>
      simp only [Logged.create, Local.create, hk]
      constructor
      · apply h.holdsOnly
      · intro p hp
        obtain ⟨hp, hx⟩ := h.describes p hp
        use hp
        apply hx.create hk
      · apply h.eventIds
      · apply h.nextEventId

/-- What was stored is there. -/
theorem get?_of_create (h : Logged.create cancelled c x = (.ok (), y)) :
  y.site.catalog.get? c.name = some c
  := by
  cases hk : x.site.catalog.create cancelled c with
  | error e =>
      simp only [Logged.create, Local.create, hk] at h
      cases h
  | ok k =>
      simp only [Logged.create, Local.create, hk] at h
      cases h
      rw [(Catalog.gains_of_create hk).get?, if_pos rfl]

/-- Announcing what is there keeps the invariant. -/
theorem Sound.announce (h : x.Sound) (cancelled : Bool)
    (hc : x.site.catalog.get? c.name = some c) :
  (Logged.announce cancelled c x).2.Sound
  := by
  cases cancelled with
  | true => apply h
  | false =>
      have hu := Update.describes_ofConfig hc x.site.feed.nextEventId
      rw [announce_live]
      constructor
      · have hw := h.holdsOnly.takeEventId.publish (u := .ofConfig c x.site.feed.nextEventId)
        rw [updates, List.map_append]
        apply hw
      · intro p hp
        obtain hp | hp := List.mem_append.mp hp
        · apply h.describes p hp
        · obtain rfl := List.mem_singleton.mp hp
          constructor
          · apply hu
          · apply hu
      · have hn : [x.site.feed.nextEventId] =
            [1 + x.postings.length].map (· % Update.eventIdBound) := by
          rw [h.nextEventId]
          rfl
        rw [updates, List.map_append, List.map_append, List.length_append, List.length_singleton,
          List.range'_concat, List.map_append, ← updates, h.eventIds, Nat.one_mul, ← hn]
        rfl
      · change (x.site.feed.nextEventId + 1) % Update.eventIdBound = _
        rw [h.nextEventId, Nat.mod_add_mod, List.length_append, List.length_singleton,
          Nat.add_assoc]

/-- Converting, storing and looking up keep the invariant; and so does announcing, for what
was stored or found is there. -/
theorem keeps_sound
    (convert : Destination → List UInt8 → Except ConvertError ServerConfig) :
  (benchBy convert).Keeps Sound fun c x => x.site.catalog.get? c.name = some c
  := by
  constructor
  · rintro destination document x a y ⟨⟩ hx
    apply hx
  · intro cancelled c x a y hy hx
    have h := hx.create cancelled c
    rw [show create cancelled c x = (a, y) from hy] at h
    apply h
  · intro cancelled c x y hy _
    apply get?_of_create hy
  · rintro name x a y ⟨⟩ hx
    apply hx
  · intro name c x y hy _
    have hc : x.site.catalog.get? name = some c := Except.ok.inj (congrArg Prod.fst hy)
    have hx : x = y := congrArg Prod.snd hy
    rw [← hx, Catalog.name_of_get? hc, hc]
  · intro cancelled c x a y hy hx hc
    have h := hx.announce cancelled hc
    rw [show announce cancelled c x = (a, y) from hy] at h
    apply h

/-- The log only ever grows. -/
theorem keeps_postings (postings : List Posting)
    (convert : Destination → List UInt8 → Except ConvertError ServerConfig) :
  (benchBy convert).Keeps (fun x => postings <+: x.postings) fun _ _ => True
  := by
  apply Workbench.Keeps.of_writes
  · intros
    rfl
  · intros
    rfl
  · intro cancelled c x hx
    apply hx
  · intro cancelled c x hx
    cases cancelled with
    | true => apply hx
    | false => apply hx.trans (List.prefix_append _ _)

/-! ### Runs -/

/-- Whatever happens keeps the invariant. -/
theorem Sound.act (h : x.Sound) (a : Action) :
  ((station convert).act a x).2.Sound
  := by
  have hw := (keeps_sound convert).watched fun cancelled _ => cancelled
  cases a with
  | importDocument faults cancelled document destination =>
      apply hw.importDocument cancelled document destination (s := ⟨[], faults, x⟩) h
  | reannounce faults cancelled name =>
      apply hw.reannounce cancelled name (s := ⟨[], faults, x⟩) h
  | visit visit =>
      constructor
      · apply (visit.holdsOnly h.holdsOnly).1
      · apply h.describes
      · apply h.eventIds
      · apply (visit.nextEventId _).trans h.nextEventId

/-- Whatever happens, the log only grows. -/
theorem postings_act (convert : Destination → List UInt8 → Except ConvertError ServerConfig)
    (a : Action) (x : Logged) :
  x.postings <+: ((station convert).act a x).2.postings
  := by
  have hw := (keeps_postings x.postings convert).watched fun cancelled _ => cancelled
  have hx := List.prefix_refl x.postings
  cases a with
  | importDocument faults cancelled document destination =>
      apply hw.importDocument cancelled document destination (s := ⟨[], faults, x⟩) hx
  | reannounce faults cancelled name =>
      apply hw.reannounce cancelled name (s := ⟨[], faults, x⟩) hx
  | visit visit => apply hx

/-- What a subscriber reads is in the log. -/
theorem Sound.mem_updates_of_act (h : x.Sound) {a : Action} {u : Update}
    (hu : .updated u ∈ ((station convert).act a x).1.deliveries) :
  u ∈ x.updates
  := by
  cases a with
  | importDocument faults cancelled document destination => cases hu
  | reannounce faults cancelled name => cases hu
  | visit visit => apply (visit.holdsOnly h.holdsOnly).2 u hu

/-- The numbers of fewer announcements than there are numbers increase. -/
theorem Sound.pairwise_eventId (h : x.Sound) (hx : x.postings.length < Update.eventIdBound) :
  x.updates.Pairwise fun u v => u.eventId < v.eventId
  := by
  have hm : ∀ n ∈ List.range' 1 x.postings.length, n % Update.eventIdBound = n := by
    intro n hn
    obtain ⟨-, hn⟩ := List.mem_range'_1.mp hn
    apply Nat.mod_eq_of_lt
    omega
  apply List.pairwise_map.mp
  rw [h.eventIds, List.map_congr_left hm, List.map_id']
  exact List.pairwise_lt_range'

variable {capacity : Nat} {actions : List Action} {t : Turn Action Reply Logged}

/-- The invariant holds throughout a run. -/
theorem sound_of_mem_history
    (ht : t ∈ history (station convert).act (ofCapacity capacity) actions) :
  t.before.Sound ∧ t.after.Sound
  := by
  apply history_keeps _ (sound_ofCapacity capacity) t ht
  intro a x hx
  apply hx.act

/-- The log grows at every call of a run. -/
theorem prefix_of_mem_history
    (ht : t ∈ history (station convert).act (ofCapacity capacity) actions) :
  t.before.postings <+: t.after.postings
  := by
  have h := postings_act convert t.request t.before
  rw [step_of_mem_history ht] at h
  apply h

/-- What is in the log after a call is in the log before every later one. -/
theorem pairwise_prefix :
  (history (station convert).act (ofCapacity capacity) actions).Pairwise fun t u =>
    t.after.postings <+: u.before.postings
  := by
  apply pairwise_history (K := fun (t : Turn Action Reply Logged) x =>
    t.after.postings <+: x.postings)
  · intro t _
    apply List.prefix_refl
  · intro t a x hx
    apply hx.trans (postings_act convert a x)

end Logged

/-- Whatever a subscriber reads was announced, and whatever was announced describes the
catalog at the moment of announcing and ever after.  The numbers of the announcements
increase as long as there are fewer than numbers.  The log by which this is said changes
nothing. -/
theorem announcements_describe_catalog
    (convert : Destination → List UInt8 → Except ConvertError ServerConfig) (capacity : Nat)
    (actions : List Action) :
  let run := history (Logged.station convert).act (Logged.ofCapacity capacity) actions
  run.map (Turn.map Logged.site) =
      history (Station.ofLocal convert).act (Local.ofCapacity capacity) actions ∧
    (∀ t ∈ run,
      (∀ u, .updated u ∈ t.reply.deliveries → ∃ p ∈ t.before.postings, p.update = u) ∧
      t.before.postings <+: t.after.postings ∧
      (∀ p ∈ t.after.postings,
        p.update.Describes p.catalog ∧ p.update.Describes t.after.site.catalog) ∧
      (t.after.postings.length < Update.eventIdBound →
        t.after.postings.Pairwise fun p q => p.update.eventId < q.update.eventId)) ∧
    run.Pairwise fun t u => t.after.postings <+: u.before.postings ∧
      ∀ p ∈ t.after.postings,
        p.update.Describes u.before.site.catalog ∧ p.update.Describes u.after.site.catalog
  := by
  intro run
  constructor
  · apply Logged.map_site_history
  constructor
  · intro t ht
    obtain ⟨hb, ha⟩ := Logged.sound_of_mem_history ht
    constructor
    · intro u hu
      apply List.mem_map.mp
      apply hb.mem_updates_of_act (a := t.request)
      rw [step_of_mem_history ht]
      apply hu
    · use Logged.prefix_of_mem_history ht, ha.describes
      intro hl
      apply List.pairwise_map.mp (ha.pairwise_eventId hl)
  · apply Logged.pairwise_prefix.imp_of_mem
    intro t u _ hu htu
    obtain ⟨hb, ha⟩ := Logged.sound_of_mem_history hu
    use htu
    intro p hp
    have hpb := htu.subset hp
    have hpa := (Logged.prefix_of_mem_history hu).subset hpb
    use (hb.describes p hpb).2
    apply (ha.describes p hpa).2

/-- A subscriber comes, a document is imported, and the subscriber reads. -/
def briefVisit : List Action :=
  [.visit .subscribe, .importDocument .none false [] .byConvention, .visit (.receive 0)]

/-- In a brief visit a subscriber reads an announcement, which describes the catalog. -/
theorem announcements_describe_catalog_briefVisit :
  let run :=
    history (Logged.station fun _ _ => .ok bareConfig).act (Logged.ofCapacity 1) briefVisit
  ∃ t ∈ run, .updated (.ofConfig bareConfig 1) ∈ t.reply.deliveries ∧
    (Update.ofConfig bareConfig 1).Describes t.after.site.catalog
  := by
  intro run
  have hr : (run.getLast?.map fun t => t.reply.deliveries) =
      some [.updated (.ofConfig bareConfig 1)] := by
    decide +kernel
  obtain ⟨t, ht, hd⟩ := Option.map_eq_some_iff.mp hr
  have ht := List.mem_of_getLast? ht
  have hu : .updated (.ofConfig bareConfig 1) ∈ t.reply.deliveries := by
    rw [hd]
    apply List.mem_singleton_self
  obtain ⟨hreads, hgrows, hdescribes, -⟩ :=
    (announcements_describe_catalog (fun _ _ => .ok bareConfig) 1 briefVisit).2.1 t ht
  obtain ⟨p, hp, hpu⟩ := hreads _ hu
  use t, ht, hu
  rw [← hpu]
  apply (hdescribes p (hgrows.subset hp)).2

end Import
end ApiIntake
