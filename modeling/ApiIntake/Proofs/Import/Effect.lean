import ApiIntake.Proofs.Import.Local
import ApiIntake.Proofs.Import.Trace
import ApiIntake.Proofs.Import.Watch

/-!
# What an import does

To the catalog and the feed of a single process an import does what its ending says
(`Local.Effect`): the catalog has gained the configuration that the ending carries, if it
carries one, and the queues of the subscribers have gained the announcement if the import
succeeded.  Where the ending says less, less has been done, whichever operations had to
fail.  A queue gains an announcement exactly if the import succeeded (`Local.Effect.gains_iff`).
-/

namespace ApiIntake.Import

open ApiIntake.Store (StoreFailure Catalog)
open ApiIntake.Feed (AnnounceFailure Backlog Broadcast Update)

/-- An import that succeeded carries its configuration. -/
theorem Ending.exists_of_succeeded {ending : Ending} (h : ending.succeeded = true) :
  ∃ c, ending = .imported c
  := by
  cases ending with
  | imported c => use c
  | notConverted e => cases h
  | notStored e => cases h
  | notAnnounced c e => cases h

namespace Local

variable {s t : Local} {cancelled : Bool} {c : ServerConfig}

/-! ### Imports -/

/-- What an import did, given what was kept before and afterwards and how the import
ended. -/
structure Effect (before : Local) (ending : Ending) (after : Local) : Prop where
  /-- The configuration that the ending carries is the one that the catalog gained. -/
  gained : ∀ c, ending.stored? = some c ↔ before.catalog.Gains c after.catalog
  /-- The catalog is the same if the ending does not carry any. -/
  kept : ending.stored? = none → after.catalog = before.catalog
  /-- If the import succeeded, every queue gained the announcement of the configuration. -/
  announced : ∀ c id b, ending = .imported c → before.feed.backlog? id = some b →
    ∃ b', after.feed.backlog? id = some b' ∧ b.Gains (.ofConfig c before.feed.nextEventId) b'
  /-- If it did not succeed, every queue is the same. -/
  silent : ending.succeeded = false → ∀ id, after.feed.backlog? id = before.feed.backlog? id

/-- Nothing was done by an import that left nothing in the store. -/
theorem Effect.refl {ending : Ending} (h : ending.stored? = none) (s : Local) :
  Effect s ending s
  := by
  constructor
  · intro c
    rw [h]
    constructor
    · rintro ⟨⟩
    · intro hg
      cases s.catalog.not_gains_self c hg
  · intro _
    rfl
  · rintro c id b rfl
    cases h
  · intro _ id
    rfl

/-- An import that stored a configuration, and neither announced it nor ended as if it
had, has left the configuration behind and nothing else. -/
theorem Effect.of_gains {e : AnnounceFailure} (hg : s.catalog.Gains c t.catalog)
    (hf : t.feed = s.feed) :
  Effect s (.notAnnounced c e) t
  := by
  constructor
  · intro d
    constructor
    · rintro ⟨⟩
      apply hg
    · intro hd
      rw [hg.unique hd]
      rfl
  · rintro ⟨⟩
  · rintro d id b ⟨⟩
  · intro _ id
    rw [hf]

/-- An import that stored a configuration and published its announcement has left both
behind. -/
theorem Effect.of_publish (hs : s.Reachable) (hg : s.catalog.Gains c t.catalog)
    (hf : t.feed = (s.feed.takeEventId.2.publish (.ofConfig c s.feed.nextEventId)).2) :
  Effect s (.imported c) t
  := by
  constructor
  · intro d
    constructor
    · rintro ⟨⟩
      apply hg
    · intro hd
      rw [hg.unique hd]
      rfl
  · rintro ⟨⟩
  · rintro d id b ⟨⟩ hb
    use b.push s.feed.keeps (.ofConfig c s.feed.nextEventId)
    constructor
    · rw [hf, Broadcast.backlog?_publish]
      apply congrArg _ hb
    · apply Backlog.gains_push hs.keeps_pos
  · rintro ⟨⟩

/-- The queue of a subscriber gained an announcement if and only if the import succeeded. -/
theorem Effect.gains_iff {ending : Ending} (h : Effect s ending t) {id : Nat} {b : Backlog}
    (hb : s.feed.backlog? id = some b) :
  ∃ b', t.feed.backlog? id = some b' ∧ ((∃ u, b.Gains u b') ↔ ending.succeeded = true)
  := by
  cases hs : ending.succeeded with
  | true =>
      obtain ⟨c, rfl⟩ := Ending.exists_of_succeeded hs
      obtain ⟨b', hb', hg⟩ := h.announced c id b rfl hb
      use b', hb'
      constructor
      · intro _
        rfl
      · intro _
        use .ofConfig c s.feed.nextEventId
  | false =>
      use b, (h.silent hs id).trans hb
      constructor
      · rintro ⟨u, hu⟩
        cases b.not_gains_self u hu
      · rintro ⟨⟩

variable {convert : Destination → List UInt8 → Except ConvertError ServerConfig}
  {x : Watched Local} {document : List UInt8} {destination : Destination}

/-- Converting does nothing to the catalog and the feed. -/
theorem inner_of_convert {y : Watched Local} {a : Except ConvertError ServerConfig}
    (h : ((benchBy convert).watched fun cancelled _ => cancelled).convert destination document x =
      (a, y)) :
  y.inner = x.inner
  := by
  cases h
  rfl

/-- A configuration that was stored is what the catalog gained, and the feed is the same. -/
theorem gains_of_created {y : Watched Local}
    (h : ((benchBy convert).watched fun cancelled _ => cancelled).create cancelled c x =
      (.ok (), y)) :
  x.inner.catalog.Gains c y.inner.catalog ∧ y.inner.feed = x.inner.feed
  := by
  obtain ⟨-, -, ⟨⟩, -⟩ | ⟨-, created, -⟩ := Watched.of_guarded h
  obtain ⟨-, hk, hf⟩ | ⟨-, ⟨⟩, -⟩ := of_create created
  use Catalog.gains_of_create hk

/-- Whatever has to fail, an import does what its ending says. -/
theorem effect_of_course {r : Ending × Watched Local} (hx : x.inner.Reachable)
    (hr : ((benchBy convert).watched fun cancelled _ => cancelled).Course cancelled document
      destination x r) :
  Effect x.inner r.1 r.2.inner
  := by
  cases hr with
  | notConverted converted =>
      rw [inner_of_convert converted]
      apply Effect.refl rfl
  | notStored converted created =>
      rw [Watched.inner_of_failed created eq_of_create, inner_of_convert converted]
      apply Effect.refl rfl
  | notAnnounced converted created announced =>
      rw [← inner_of_convert converted]
      obtain ⟨hg, hf⟩ := gains_of_created created
      rw [← Watched.inner_of_failed announced eq_of_announce] at hg hf
      apply Effect.of_gains hg hf
  | imported converted created announced =>
      rw [← inner_of_convert converted] at hx ⊢
      obtain ⟨hg, hf⟩ := gains_of_created created
      obtain ⟨-, -, ⟨⟩, -⟩ | ⟨-, announced, -⟩ := Watched.of_guarded announced
      obtain ⟨-, hl, hp⟩ | ⟨-, ⟨⟩, -⟩ := of_announce announced
      apply Effect.of_publish hx
      · rw [hl]
        apply hg
      · rw [hp, hf]

/-- Whatever has to fail, an import leads from reachable states to reachable states. -/
theorem Reachable.importDocument (h : x.inner.Reachable) :
  (((benchBy convert).watched fun cancelled _ => cancelled).importDocument cancelled document
    destination x).2.inner.Reachable
  := by
  apply ((keeps_reachable convert).watched _).importDocument cancelled document destination h

/-- Whatever has to fail, a second announcement leads from reachable states to reachable
states. -/
theorem Reachable.reannounce {name : String} (h : x.inner.Reachable) :
  (((benchBy convert).watched fun cancelled _ => cancelled).reannounce cancelled name
    x).2.inner.Reachable
  := by
  apply ((keeps_reachable convert).watched _).reannounce cancelled name h

end Local

/-- An import makes the calls of a dialogue, whatever they are answered; and to the catalog
and the feed of a single process it does what its ending says, whichever operations have to
fail. -/
theorem importDocument_dialogue_and_effect :
  (∀ {τ σ : Type} (w : Workbench τ σ) (token : τ) (document : List UInt8)
      (destination : Destination) (s : σ) (exchanges : List (Exchange τ)),
    ∃ made,
      w.traced.importDocument token document destination ⟨exchanges, s⟩ =
        ((w.importDocument token document destination s).1,
          ⟨exchanges ++ made, (w.importDocument token document destination s).2⟩) ∧
      Workbench.Dialogue token document destination made
        (w.importDocument token document destination s).1) ∧
  ∀ (convert : Destination → List UInt8 → Except ConvertError ServerConfig) (cancelled : Bool)
      (document : List UInt8) (destination : Destination) (x : Watched Local),
    x.inner.Reachable →
    let (ending, y) :=
      ((Local.benchBy convert).watched fun cancelled _ => cancelled).importDocument cancelled
        document destination x
    Local.Effect x.inner ending y.inner ∧
      ∀ id b, x.inner.feed.backlog? id = some b →
        ∃ b', y.inner.feed.backlog? id = some b' ∧
          ((∃ u, b.Gains u b') ↔ ending.succeeded = true)
  := by
  constructor
  · intro τ σ w token document destination s exchanges
    apply Workbench.traced_importDocument
  · intro convert cancelled document destination x hx
    have he := Local.effect_of_course hx
      (((Local.benchBy convert).watched fun cancelled _ => cancelled).course_importDocument
        cancelled document destination x)
    use he
    intro id b hb
    apply he.gains_iff hb

/-- A feed with one subscriber, beside an empty catalog. -/
def awaited : Local := { Local.ofCapacity 1 with feed := (Broadcast.ofCapacity 1).subscribe.2 }

/-- With a subscriber waiting, an import that succeeds leaves its configuration in the
catalog and its announcement in the queue. -/
theorem importDocument_effect_awaited :
  awaited.Reachable ∧
    let (ending, y) :=
      ((Local.benchBy fun _ _ => .ok bareConfig).watched fun cancelled _ => cancelled).importDocument
        false [] .byConvention (.ofState awaited)
    ending = .imported bareConfig ∧ Local.Effect awaited ending y.inner ∧
      ∃ b, y.inner.feed.backlog? 0 = some b ∧ Backlog.empty.Gains (.ofConfig bareConfig 1) b
  := by
  have hx : awaited.Reachable := by
    apply Local.Reachable.subscribe
    apply Local.Reachable.ofCapacity
  obtain ⟨he, -⟩ := importDocument_dialogue_and_effect.2 (fun _ _ => .ok bareConfig) false []
    .byConvention (.ofState awaited) hx
  use hx, rfl, he
  apply he.announced bareConfig 0 Backlog.empty rfl rfl

end ApiIntake.Import
