import ApiIntake.Proofs.Import.Effect
import ApiIntake.Proofs.Import.Station

/-!
# Announcements made up for

An import may end with a configuration that is stored but was not announced.  The catalog
of a single process holds what the imports of a run have left in it, and nothing else
(`Local.records_run`); so the configuration can be announced once more at any later time, and
the subscribers then get what they would have got at first, but for the number
(`reannounce_recovers`).
-/

namespace ApiIntake

open ApiIntake.Store (StoreFailure Catalog)
open ApiIntake.Feed (AnnounceFailure Backlog Broadcast Update)

/-! ### Deliveries -/

/-- The queue of every subscriber has gained an announcement, and there is no other
subscriber. -/
structure Feed.Broadcast.Delivers (before : Broadcast) (u : Update) (after : Broadcast) : Prop where
  /-- Every queue has gained it. -/
  gained : ∀ id b, before.backlog? id = some b →
    ∃ b', after.backlog? id = some b' ∧ b.Gains u b'
  /-- Nobody has come. -/
  absent : ∀ id, before.backlog? id = none → after.backlog? id = none

/-- What is published is delivered. -/
theorem Feed.Broadcast.delivers_publish {b : Broadcast} (h : 0 < b.keeps) (u : Update) :
  b.Delivers u (b.publish u).2
  := by
  constructor
  · intro id q hq
    use q.push b.keeps u
    constructor
    · rw [backlog?_publish, hq, Option.map_some]
    · apply Backlog.gains_push h
  · intro id hid
    rw [backlog?_publish, hid, Option.map_none]

namespace Import

/-- An operation that does not have to fail does what it does. -/
theorem Watched.guarded_of_ready {σ α ε : Type} {fault : Faults → Option ε}
    {m : StateM σ (Except ε α)} {x : Watched σ} {a : Except ε α} {s : σ}
    (ready : fault x.faults = none) (h : m x.inner = (a, s)) :
  guarded fault m x = (a, ⟨x.calls, x.faults, s⟩)
  := by
  rw [guarded_apply, ready, h]

/-- The configuration that an action has left in the store. -/
def Reply.stored? : Reply → Option ServerConfig
  | .ended ending => ending.stored?
  | _ => none

namespace Local

variable {convert : Destination → List UInt8 → Except ConvertError ServerConfig}
  {faults : Faults} {cancelled : Bool} {document : List UInt8} {destination : Destination}
  {name : String} {c : ServerConfig} {s t : Local}

/-- The state in which a configuration has been announced under the next number. -/
def announced (c : ServerConfig) (s : Local) : Local :=
  { s with feed := (s.feed.takeEventId.2.publish (.ofConfig c s.feed.nextEventId)).2 }

/-- What is announced is delivered. -/
theorem delivers_announced (h : s.Reachable) (c : ServerConfig) :
  s.feed.Delivers (.ofConfig c s.feed.nextEventId) (s.announced c).feed
  := by
  have hd := Broadcast.delivers_publish (b := s.feed.takeEventId.2) h.keeps_pos
    (.ofConfig c s.feed.nextEventId)
  exact ⟨hd.gained, hd.absent⟩

/-! ### Single actions -/

/-- Whatever happens at a single process leads from reachable states to reachable states. -/
theorem Reachable.act (h : s.Reachable) (a : Action) :
  ((Station.ofLocal convert).act a s).2.Reachable
  := by
  cases a with
  | importDocument faults cancelled document destination =>
      apply Reachable.importDocument (x := ⟨[], faults, s⟩) h
  | reannounce faults cancelled name =>
      apply Reachable.reannounce (x := ⟨[], faults, s⟩) h
  | visit visit =>
      cases visit with
      | subscribe => apply h.subscribe
      | unsubscribe id => apply h.unsubscribe
      | receive id => apply h.receive
      | drain id => apply h.drain

/-- How a second announcement goes at a single process of which some operations have to
fail. -/
inductive Again (faults : Faults) (cancelled : Bool) (name : String) (s : Local) :
    Reply × Local → Prop
  /-- The store fails. -/
  | unavailable {e : StoreFailure} (fault : faults.get = some e) :
    Again faults cancelled name s (.reannounced (.error (.store e)), s)
  /-- There is no configuration with the name. -/
  | notFound (works : faults.get = none) (absent : s.catalog.get? name = none) :
    Again faults cancelled name s (.reannounced (.error (.notFound name)), s)
  /-- The feed fails, or the caller has given up. -/
  | notAnnounced {c : ServerConfig} {e : AnnounceFailure} (works : faults.get = none)
    (found : s.catalog.get? name = some c)
    (trouble : cancelled = true ∨ faults.announce = some e) :
    Again faults cancelled name s (.reannounced (.error (.announce e)), s)
  /-- The configuration is announced. -/
  | announced {c : ServerConfig} (works : faults.get = none)
    (found : s.catalog.get? name = some c) (live : cancelled = false)
    (ready : faults.announce = none) :
    Again faults cancelled name s (.reannounced (.ok c), s.announced c)

section

variable {x y : Watched Local}

/-- Looking up fails if it has to, and tells otherwise what the catalog has. -/
theorem of_get {a : Except StoreFailure (Option ServerConfig)}
    (h : ((benchBy convert).watched fun cancelled _ => cancelled).get name x = (a, y)) :
  y.inner = x.inner ∧ y.faults = x.faults ∧
    ((∃ e, x.faults.get = some e ∧ a = .error e) ∨
      x.faults.get = none ∧ a = .ok (x.inner.catalog.get? name))
  := by
  obtain ⟨e, hf, ha, rfl⟩ | ⟨hf, hm, hy⟩ := Watched.of_guarded h
  · exact ⟨rfl, rfl, .inl ⟨e, hf, ha⟩⟩
  · have ha : .ok (x.inner.catalog.get? name) = a := congrArg Prod.fst hm
    have hi : x.inner = y.inner := congrArg Prod.snd hm
    rw [hy]
    exact ⟨hi.symm, rfl, .inr ⟨hf, ha.symm⟩⟩

/-- Announcing fails if it has to or the caller has given up, and announces otherwise. -/
theorem of_watched_announce {a : Except AnnounceFailure Unit}
    (h : ((benchBy convert).watched fun cancelled _ => cancelled).announce cancelled c x =
      (a, y)) :
  (∃ e, a = .error e ∧ y.inner = x.inner ∧ (cancelled = true ∨ x.faults.announce = some e)) ∨
    a = .ok () ∧ y.inner = x.inner.announced c ∧ cancelled = false ∧ x.faults.announce = none
  := by
  obtain ⟨e, hf, ha, rfl⟩ | ⟨hf, hm, -⟩ := Watched.of_guarded h
  · left
    exact ⟨e, ha, rfl, .inr hf⟩
  · cases cancelled with
    | true =>
        left
        exact ⟨.cancelled, (congrArg Prod.fst hm).symm, (congrArg Prod.snd hm).symm, .inl rfl⟩
    | false =>
        right
        exact ⟨(congrArg Prod.fst hm).symm, (congrArg Prod.snd hm).symm, rfl, hf⟩

end

/-- A second announcement goes one of these ways. -/
theorem again_reannounce (convert : Destination → List UInt8 → Except ConvertError ServerConfig)
    (faults : Faults) (cancelled : Bool) (name : String) (s : Local) :
  Again faults cancelled name s
    ((Station.ofLocal convert).act (.reannounce faults cancelled name) s)
  := by
  have hr := ((benchBy convert).watched fun cancelled _ => cancelled).recourse_reannounce cancelled
    name ⟨[], faults, s⟩
  change Again faults cancelled name s
    (.reannounced (((benchBy convert).watched fun cancelled _ => cancelled).reannounce cancelled
        name ⟨[], faults, s⟩).1,
      (((benchBy convert).watched fun cancelled _ => cancelled).reannounce cancelled
        name ⟨[], faults, s⟩).2.inner)
  generalize ((benchBy convert).watched fun cancelled _ => cancelled).reannounce cancelled name
    ⟨[], faults, s⟩ = r at hr ⊢
  cases hr with
  | unavailable got =>
      obtain ⟨hi, -, ⟨e, hf, ⟨⟩⟩ | ⟨-, ⟨⟩⟩⟩ := of_get got
      rw [hi]
      apply Again.unavailable hf
  | notFound got =>
      obtain ⟨hi, -, ⟨e, -, ⟨⟩⟩ | ⟨hf, ha⟩⟩ := of_get got
      rw [hi]
      apply Again.notFound hf
      apply (Except.ok.inj ha).symm
  | notAnnounced got announced =>
      obtain ⟨hi, hfaults, ⟨e, -, ⟨⟩⟩ | ⟨hf, ha⟩⟩ := of_get got
      obtain ⟨e, ⟨⟩, hy, trouble⟩ | ⟨⟨⟩, -⟩ := of_watched_announce announced
      rw [hy, hi]
      rw [hfaults] at trouble
      apply Again.notAnnounced hf (Except.ok.inj ha).symm trouble
  | announced got announced =>
      obtain ⟨hi, hfaults, ⟨e, -, ⟨⟩⟩ | ⟨hf, ha⟩⟩ := of_get got
      obtain ⟨e, ⟨⟩, -⟩ | ⟨-, hy, live, ready⟩ := of_watched_announce announced
      rw [hy, hi]
      rw [hfaults] at ready
      apply Again.announced hf (Except.ok.inj ha).symm live ready

/-- How an import goes at a single process of which some operations have to fail. -/
inductive Once (convert : Destination → List UInt8 → Except ConvertError ServerConfig)
    (faults : Faults) (cancelled : Bool) (document : List UInt8) (destination : Destination)
    (s : Local) : Reply × Local → Prop
  /-- Nothing is left in the store. -/
  | nothing {ending : Ending} (left : ending.stored? = none) :
    Once convert faults cancelled document destination s (.ended ending, s)
  /-- What was converted is left in the store and not announced. -/
  | notAnnounced {c : ServerConfig} {e : AnnounceFailure} {k : Catalog}
    (converted : convert destination document = .ok c) (works : faults.create = none)
    (created : s.catalog.create cancelled c = .ok k) :
    Once convert faults cancelled document destination s
      (.ended (.notAnnounced c e), { s with catalog := k })
  /-- What was converted is left in the store and announced. -/
  | imported {c : ServerConfig} {k : Catalog}
    (converted : convert destination document = .ok c) (works : faults.create = none)
    (created : s.catalog.create cancelled c = .ok k) :
    Once convert faults cancelled document destination s
      (.ended (.imported c), announced c { s with catalog := k })

section

variable {x y : Watched Local}

/-- Converting fails only as the document does, and changes nothing. -/
theorem of_watched_convert {a : Except ConvertError ServerConfig}
    (h : ((benchBy convert).watched fun cancelled _ => cancelled).convert destination document x =
      (a, y)) :
  convert destination document = a ∧ y.faults = x.faults ∧ y.inner = x.inner
  := by
  cases h
  exact ⟨rfl, rfl, rfl⟩

/-- A configuration that was stored has come into the catalog, and nothing else was done. -/
theorem of_watched_create
    (h : ((benchBy convert).watched fun cancelled _ => cancelled).create cancelled c x =
      (.ok (), y)) :
  ∃ k, x.faults.create = none ∧ x.inner.catalog.create cancelled c = .ok k ∧
    y.inner = { x.inner with catalog := k }
  := by
  obtain ⟨-, -, ⟨⟩, -⟩ | ⟨hf, created, -⟩ := Watched.of_guarded h
  obtain ⟨-, hk, hfeed⟩ | ⟨-, ⟨⟩, -⟩ := of_create created
  use y.inner.catalog, hf, hk
  apply congrArg (Local.mk y.inner.catalog) hfeed

end

/-- An import goes one of these ways. -/
theorem once_importDocument
    (convert : Destination → List UInt8 → Except ConvertError ServerConfig) (faults : Faults)
    (cancelled : Bool) (document : List UInt8) (destination : Destination) (s : Local) :
  Once convert faults cancelled document destination s
    ((Station.ofLocal convert).act (.importDocument faults cancelled document destination) s)
  := by
  have hr := ((benchBy convert).watched fun cancelled _ => cancelled).course_importDocument
    cancelled document destination ⟨[], faults, s⟩
  change Once convert faults cancelled document destination s
    (.ended (((benchBy convert).watched fun cancelled _ => cancelled).importDocument cancelled
        document destination ⟨[], faults, s⟩).1,
      (((benchBy convert).watched fun cancelled _ => cancelled).importDocument cancelled
        document destination ⟨[], faults, s⟩).2.inner)
  generalize ((benchBy convert).watched fun cancelled _ => cancelled).importDocument cancelled
    document destination ⟨[], faults, s⟩ = r at hr ⊢
  cases hr with
  | notConverted converted =>
      rw [inner_of_convert converted]
      apply Once.nothing rfl
  | notStored converted created =>
      rw [Watched.inner_of_failed created eq_of_create, inner_of_convert converted]
      apply Once.nothing rfl
  | notAnnounced converted created announced =>
      obtain ⟨hd, hfaults, hs⟩ := of_watched_convert converted
      obtain ⟨k, works, hk, hy⟩ := of_watched_create created
      rw [hfaults] at works
      rw [hs] at hk hy
      rw [Watched.inner_of_failed announced eq_of_announce, hy]
      apply Once.notAnnounced hd works hk
  | imported converted created announced =>
      obtain ⟨hd, hfaults, hs⟩ := of_watched_convert converted
      obtain ⟨k, works, hk, hy⟩ := of_watched_create created
      obtain ⟨e, ⟨⟩, -⟩ | ⟨-, ha, -⟩ := of_watched_announce announced
      rw [hfaults] at works
      rw [hs] at hk hy
      rw [ha, hy]
      apply Once.imported hd works hk

/-- What was converted and stored is announced unless the feed has to fail. -/
theorem act_importDocument_of_created {k : Catalog}
    (converted : convert destination document = .ok c) (works : faults.create = none)
    (created : s.catalog.create cancelled c = .ok k) (ready : faults.announce = none) :
  (Station.ofLocal convert).act (.importDocument faults cancelled document destination) s =
    (.ended (.imported c), announced c { s with catalog := k })
  := by
  obtain ⟨rfl, -⟩ := Catalog.create_eq_ok_iff.mp created
  have hs : create false c s = (.ok (), { s with catalog := k }) := by
    rw [create, created]
  have ha : announce false c { s with catalog := k } =
      (.ok (), announced c { s with catalog := k }) := rfl
  have hr : ((benchBy convert).watched fun cancelled _ => cancelled).Course false document
      destination ⟨[], faults, s⟩
      (.imported c, ⟨[.convert destination, .create c.name false, .announce c.name false], faults,
        announced c { s with catalog := k }⟩) := by
    apply Workbench.Course.imported
    · apply congrArg (fun r => (r, Watched.mk [.convert destination] faults s)) converted
    · apply Watched.guarded_of_ready works hs
    · apply Watched.guarded_of_ready ready ha
  apply congrArg (fun r => (Reply.ended r.1, r.2.inner)) hr.eq

/-! ### Runs -/

/-- The catalog has what was left in the store by the actions so far, and nothing else. -/
structure Records (turns : List (Turn Action Reply Local)) (s : Local) : Prop where
  /-- The state is reachable. -/
  reachable : s.Reachable
  /-- A name leads to what was stored under it. -/
  get? : ∀ name c, s.catalog.get? name = some c ↔
    ∃ t ∈ turns, t.reply.stored? = some c ∧ c.name = name

/-- What was left in the store is the one thing that the catalog has gained. -/
theorem gains_of_once {r : Reply × Local}
    (h : Once convert faults cancelled document destination s r) :
  (r.1.stored? = none ∧ r.2.catalog = s.catalog) ∨
    ∃ c, r.1.stored? = some c ∧ s.catalog.Gains c r.2.catalog
  := by
  cases h with
  | nothing left =>
      left
      exact ⟨left, rfl⟩
  | @notAnnounced c e k converted works created =>
      right
      exact ⟨c, rfl, Catalog.gains_of_create created⟩
  | @imported c k converted works created =>
      right
      exact ⟨c, rfl, Catalog.gains_of_create created⟩

/-- A second announcement leaves the catalog as it is. -/
theorem catalog_of_again {r : Reply × Local} (h : Again faults cancelled name s r) :
  r.1.stored? = none ∧ r.2.catalog = s.catalog
  := by
  cases h with
  | unavailable => exact ⟨rfl, rfl⟩
  | notFound => exact ⟨rfl, rfl⟩
  | notAnnounced => exact ⟨rfl, rfl⟩
  | announced => exact ⟨rfl, rfl⟩

/-- What an action has left in the store is the one thing that the catalog has gained. -/
theorem gains_act (convert : Destination → List UInt8 → Except ConvertError ServerConfig)
    (a : Action) (s : Local) :
  let r := (Station.ofLocal convert).act a s
  (r.1.stored? = none ∧ r.2.catalog = s.catalog) ∨
    ∃ c, r.1.stored? = some c ∧ s.catalog.Gains c r.2.catalog
  := by
  cases a with
  | importDocument faults cancelled document destination =>
      apply gains_of_once (once_importDocument convert faults cancelled document destination s)
  | reannounce faults cancelled name =>
      left
      apply catalog_of_again (again_reannounce convert faults cancelled name s)
  | visit visit =>
      left
      cases visit with
      | subscribe => exact ⟨rfl, rfl⟩
      | unsubscribe id => exact ⟨rfl, rfl⟩
      | receive id => exact ⟨rfl, rfl⟩
      | drain id => exact ⟨rfl, rfl⟩

/-- Nothing was stored before anything has happened. -/
theorem records_ofCapacity (capacity : Nat) :
  Records [] (ofCapacity capacity)
  := by
  use .ofCapacity capacity
  intro name c
  constructor
  · rintro ⟨⟩
  · rintro ⟨t, ⟨⟩, -⟩

/-- Whatever happens is recorded. -/
theorem Records.act {turns : List (Turn Action Reply Local)} (h : Records turns s) (a : Action) :
  Records
    (turns ++
      [⟨a, s, ((Station.ofLocal convert).act a s).1, ((Station.ofLocal convert).act a s).2⟩])
    ((Station.ofLocal convert).act a s).2
  := by
  use h.reachable.act a
  intro name c
  have hg := gains_act convert a s
  generalize (Station.ofLocal convert).act a s = r at hg ⊢
  simp only [List.mem_append, List.mem_singleton, or_and_right, exists_or, exists_eq_left]
  rw [← h.get?]
  obtain ⟨hnone, hk⟩ | ⟨d, hd, hk⟩ := hg
  · simp [hnone, hk]
  · rw [hk.get?, hd]
    -- a name that is gained is new, so nothing was stored under it earlier
    by_cases hn : name = d.name
    · rw [if_pos hn, hn, hk.new]
      constructor
      · rintro ⟨⟩
        exact .inr ⟨rfl, rfl⟩
      · rintro (⟨⟨⟩⟩ | ⟨hc, -⟩)
        apply hc
    · rw [if_neg hn]
      constructor
      · intro hc
        exact .inl hc
      · rintro (hc | ⟨⟨⟩, hc⟩)
        · apply hc
        · apply absurd hc.symm hn

/-- The catalog of a single process records its run. -/
theorem records_run (convert : Destination → List UInt8 → Except ConvertError ServerConfig)
    (capacity : Nat) (actions : List Action) :
  Records (history (Station.ofLocal convert).act (ofCapacity capacity) actions)
    (reached (Station.ofLocal convert).act (ofCapacity capacity) actions)
  := by
  apply run_keeps (P := Records) (records_ofCapacity capacity)
  intro a _ turns s h
  apply h.act

/-- A configuration that the catalog has is announced if nothing that is needed has to fail. -/
theorem act_reannounce_of_get? (works : faults.get = none) (ready : faults.announce = none)
    (found : s.catalog.get? name = some c) :
  (Station.ofLocal convert).act (.reannounce faults false name) s =
    (.reannounced (.ok c), s.announced c)
  := by
  have h := again_reannounce convert faults false name s
  generalize (Station.ofLocal convert).act (.reannounce faults false name) s = r at h ⊢
  cases h with
  | unavailable fault =>
      rw [works] at fault
      cases fault
  | notFound _ absent =>
      rw [found] at absent
      cases absent
  | notAnnounced _ _ trouble =>
      rw [ready] at trouble
      obtain ⟨⟨⟩⟩ | ⟨⟨⟩⟩ := trouble
  | announced _ found' =>
      rw [found] at found'
      cases found'
      rfl

/-- A second announcement that fails changes nothing. -/
theorem eq_of_again_error {e : ReannounceFailure} {r : Reply × Local}
    (h : Again faults cancelled name s r) (he : r.1 = .reannounced (.error e)) :
  r.2 = s
  := by
  cases h with
  | unavailable => rfl
  | notFound => rfl
  | notAnnounced => rfl
  | announced => cases he

/-- A configuration is not found if and only if there is none with the name, as long as looking
up works. -/
theorem notFound_iff (works : faults.get = none) :
  ((Station.ofLocal convert).act (.reannounce faults cancelled name) s).1 =
      .reannounced (.error (.notFound name)) ↔
    s.catalog.get? name = none
  := by
  have h := again_reannounce convert faults cancelled name s
  generalize (Station.ofLocal convert).act (.reannounce faults cancelled name) s = r at h ⊢
  cases h with
  | unavailable fault =>
      rw [works] at fault
      cases fault
  | notFound _ absent => simp [absent]
  | notAnnounced _ found => simp [found]
  | announced _ found => simp [found]

/-- An import that left a configuration in the store would have announced it if its feed had not
had to fail. -/
theorem act_importDocument_of_stored? {ending : Ending}
    (h : (Station.ofLocal convert).act (.importDocument faults cancelled document destination) s =
      (.ended ending, t))
    (hc : ending.stored? = some c) :
  ∃ k, (Station.ofLocal convert).act
      (.importDocument { faults with announce := none } cancelled document destination) s =
    (.ended (.imported c), announced c { s with catalog := k })
  := by
  have ho := once_importDocument convert faults cancelled document destination s
  rw [h] at ho
  have hready : ∀ {k}, convert destination document = .ok c → faults.create = none →
      s.catalog.create cancelled c = .ok k → _ := fun converted works created =>
    act_importDocument_of_created converted
      (show { faults with announce := none }.create = none from works) created rfl
  cases ho with
  | nothing left =>
      rw [left] at hc
      cases hc
  | @notAnnounced c e k converted works created =>
      cases hc
      use k
      apply hready converted works created
  | @imported c k converted works created =>
      cases hc
      use k
      apply hready converted works created

end Local

/-- A configuration that an import of a run has left in the store can be announced once more at
any later time when looking up and the feed work.  Every subscriber then gets what the import
would have sent if its feed had worked, but for the number, and the catalog stays as it is.
A second announcement that fails sends nothing and changes nothing.  As long as looking up
works, a configuration is not found if and only if no import has left one with the name. -/
theorem reannounce_recovers
    (convert : Destination → List UInt8 → Except ConvertError ServerConfig) (capacity : Nat)
    (actions : List Action) :
  let act := (Station.ofLocal convert).act
  let run := history act (.ofCapacity capacity) actions
  let s := reached act (.ofCapacity capacity) actions
  (∀ t ∈ run, ∀ faults cancelled document destination ending c,
      t.request = .importDocument faults cancelled document destination →
      t.reply = .ended ending → ending.stored? = some c →
      ∀ faults', faults'.get = none → faults'.announce = none →
        let u := Update.ofConfig c s.feed.nextEventId
        ∃ feed,
          act (.reannounce faults' false c.name) s = (.reannounced (.ok c), { s with feed }) ∧
            s.feed.Delivers u feed ∧
            ∃ after,
              act (.importDocument { faults with announce := none } cancelled document destination)
                  t.before = (.ended (.imported c), after) ∧
                t.before.feed.Delivers { u with eventId := t.before.feed.nextEventId }
                  after.feed) ∧
    (∀ faults cancelled name e after,
      act (.reannounce faults cancelled name) s = (.reannounced (.error e), after) → after = s) ∧
    ∀ faults cancelled name, faults.get = none →
      ((act (.reannounce faults cancelled name) s).1 = .reannounced (.error (.notFound name)) ↔
        ∀ t ∈ run, ∀ c, t.reply.stored? = some c → c.name ≠ name)
  := by
  intro act run s
  have hs : Local.Records run s := Local.records_run convert capacity actions
  constructor
  · intro t ht faults cancelled document destination ending c hrequest hreply hc faults' works
      ready u
    have hstep := step_of_mem_history ht
    rw [hrequest, hreply] at hstep
    have hbefore : t.before.Reachable := by
      apply (history_keeps _ (Local.Reachable.ofCapacity capacity) t ht).1
      intro a s h
      apply h.act
    have found : s.catalog.get? c.name = some c := by
      apply (hs.get? c.name c).mpr
      use t, ht
      rw [hreply]
      exact ⟨hc, rfl⟩
    obtain ⟨k, hk⟩ := Local.act_importDocument_of_stored? hstep hc
    use (s.announced c).feed
    use Local.act_reannounce_of_get? works ready found
    use Local.delivers_announced hs.reachable c
    exact ⟨_, hk, Local.delivers_announced hbefore c⟩
  constructor
  · intro faults cancelled name e after h
    have ha := Local.again_reannounce convert faults cancelled name s
    rw [show (Station.ofLocal convert).act _ s = _ from h] at ha
    apply Local.eq_of_again_error ha rfl
  · intro faults cancelled name works
    apply (Local.notFound_iff works).trans
    rw [Option.eq_none_iff_forall_ne_some]
    constructor
    · intro h t ht c hc hn
      apply h c
      apply (hs.get? name c).mpr ⟨t, ht, hc, hn⟩
    · intro h c hc
      obtain ⟨t, ht, hc, hn⟩ := (hs.get? name c).mp hc
      apply h t ht c hc hn

/-- A subscriber comes, and a document is imported while the feed is down. -/
def lostNews : List Action :=
  [.visit .subscribe,
    .importDocument { Faults.none with announce := some (.unavailable "down") } false []
      .byConvention]

/-- The news that were lost are made up for: the configuration is stored and not announced, and
when it is announced once more the subscriber gets it. -/
theorem reannounce_recovers_lostNews :
  let act := (Station.ofLocal fun _ _ => .ok bareConfig).act
  let s := reached act (.ofCapacity 1) lostNews
  (∃ t ∈ history act (.ofCapacity 1) lostNews,
      t.reply = .ended (.notAnnounced bareConfig (.unavailable "down"))) ∧
    ∃ feed,
      act (.reannounce .none false bareConfig.name) s =
          (.reannounced (.ok bareConfig), { s with feed }) ∧
        s.feed.Delivers (.ofConfig bareConfig 1) feed ∧
        ∃ b, feed.backlog? 0 = some b ∧ Backlog.empty.Gains (.ofConfig bareConfig 1) b
  := by
  intro act s
  have ht : ∃ t ∈ history act (.ofCapacity 1) lostNews,
      t.reply = .ended (.notAnnounced bareConfig (.unavailable "down")) ∧
        t.request = .importDocument { Faults.none with announce := some (.unavailable "down") }
          false [] .byConvention :=
    ⟨_, List.mem_cons_of_mem _ List.mem_cons_self, rfl, rfl⟩
  obtain ⟨t, ht, hreply, hrequest⟩ := ht
  use ⟨t, ht, hreply⟩
  obtain ⟨feed, hact, hd, -⟩ := (reannounce_recovers (fun _ _ => .ok bareConfig) 1 lostNews).1 t ht
    _ _ _ _ _ _ hrequest hreply rfl .none rfl rfl
  use feed, hact, hd
  apply hd.gained 0 Backlog.empty rfl

end Import

end ApiIntake
