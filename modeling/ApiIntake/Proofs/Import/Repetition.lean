import ApiIntake.Proofs.Conversion.Place
import ApiIntake.Proofs.Import.Local
import ApiIntake.Proofs.Import.Trace

/-!
# Importing a document again

The name of a configuration hangs on the bytes of its document alone, and the catalog keeps
what it has under a name.  So of all imports of one document at most one stores a
configuration; any later one is told that the name is taken, and neither announces nor
changes anything, wherever its configuration was to go (`imports_of_document`).

The imports are run over a catalog and over a feed of any kind, which may fail at any call.
-/

namespace ApiIntake.Import

open ApiIntake.Store (StoreFailure Catalog refusal? refusal?_congr)
open ApiIntake.Feed (AnnounceFailure)

/-! ### Another feed -/

section

variable {τ σ ν α : Type}

/-- Runs an operation on the first of two states. -/
def onFirst (m : StateM σ α) : StateM (σ × ν) α := fun x => ((m x.1).1, (m x.1).2, x.2)

/-- Runs an operation on the second of two states. -/
def onSecond (m : StateM ν α) : StateM (σ × ν) α := fun x => ((m x.2).1, x.1, (m x.2).2)

/-- An operation on the first state leaves the second alone. -/
theorem of_onFirst {m : StateM σ α} {x y : σ × ν} {a : α} (h : onFirst m x = (a, y)) :
  m x.1 = (a, y.1) ∧ y.2 = x.2
  := by
  cases h
  use rfl

/-- The same workbench with another feed, which has a state of its own. -/
def Workbench.announcingBy (w : Workbench τ σ)
    (announce : τ → ServerConfig → StateM ν (Except AnnounceFailure Unit)) :
    Workbench τ (σ × ν) where
  convert destination document := onFirst (w.convert destination document)
  create token config := onFirst (w.create token config)
  get name := onFirst (w.get name)
  list := onFirst w.list
  announce token config := onSecond (announce token config)

/-- What the operations of a workbench keep is kept with another feed. -/
theorem Workbench.Keeps.announcingBy {w : Workbench τ σ} {P : σ → Prop}
    {Q : ServerConfig → σ → Prop} (h : w.Keeps P Q)
    (announce : τ → ServerConfig → StateM ν (Except AnnounceFailure Unit)) :
  (w.announcingBy announce).Keeps (fun x => P x.1) (fun c x => Q c x.1)
  := by
  constructor
  · intro destination document x a y hy
    apply h.convert (of_onFirst hy).1
  · intro token c x a y hy
    apply h.create (of_onFirst hy).1
  · intro token c x y hy
    apply h.created (of_onFirst hy).1
  · intro name x a y hy
    apply h.get (of_onFirst hy).1
  · intro name c x y hy
    apply h.got (of_onFirst hy).1
  · rintro token c x a - ⟨⟩ hx _
    apply hx

end

/-- A configuration that a single process keeps stays. -/
theorem Local.keeps_get? (convert : Destination → List UInt8 → Except ConvertError ServerConfig)
    (name : String) (c : ServerConfig) :
  (Local.benchBy convert).Keeps (fun s => s.catalog.get? name = some c) fun _ _ => True
  := by
  apply Workbench.Keeps.of_writes
  · intros
    rfl
  · intros
    rfl
  · intro cancelled d s hs
    change (Local.create cancelled d s).2.catalog.get? name = some c
    rcases h : Local.create cancelled d s with ⟨a, t⟩
    obtain ⟨-, hk, -⟩ | ⟨-, -, rfl⟩ := Local.of_create h
    · apply Catalog.get?_of_create hk hs
    · apply hs
  · intro cancelled d s hs
    change (Local.announce cancelled d s).2.catalog.get? name = some c
    rcases h : Local.announce cancelled d s with ⟨a, t⟩
    obtain ⟨-, hk, -⟩ | ⟨-, -, rfl⟩ := Local.of_announce h
    · rw [hk, hs]
    · apply hs

/-! ### Orders -/

/-- What is asked for by an import. -/
structure Order where
  /-- The document. -/
  document : List UInt8
  /-- Where its configuration is to go. -/
  destination : Destination
  /-- Whether the caller has given up. -/
  cancelled : Bool

/-- Runs the import that is asked for. -/
def Workbench.fulfil {σ : Type} (w : Workbench Bool σ) (o : Order) : StateM σ Ending :=
  w.importDocument o.cancelled o.document o.destination

section

variable {ν : Type} (settings : Settings)
  (announce : Bool → ServerConfig → StateM ν (Except AnnounceFailure Unit))

/-- The workbench of a single process that writes its calls down and announces in any
way. -/
def announcingBench : Workbench Bool (Traced Bool (Local × ν)) :=
  ((Local.bench settings).announcingBy announce).traced

variable {settings announce} {o : Order} {x y z : Traced Bool (Local × ν)} {ending : Ending}
  {c : ServerConfig}

/-- A configuration that is converted and stored is what its document gives.  Its name is
not blank and was not taken, and leads to it from now on. -/
theorem of_convert_create {cancelled : Bool} {document : List UInt8} {destination : Destination}
    (converted : (announcingBench settings announce).convert destination document x = (.ok c, y))
    (created : (announcingBench settings announce).create cancelled c y = (.ok (), z)) :
  convert settings destination document = .ok c ∧ refusal? c = none ∧
    x.inner.1.catalog.get? c.name = none ∧ z.inner.1.catalog.get? c.name = some c
  := by
  have hc := (of_onFirst (Traced.of_write converted).1).1
  have hs : x.inner.1 = y.inner.1 := congrArg Prod.snd hc
  have hk := (of_onFirst (Traced.of_write created).1).1
  obtain ⟨-, hk, -⟩ | ⟨-, ⟨⟩, -⟩ := Local.of_create hk
  obtain ⟨-, hr, hn, -⟩ := Catalog.create_eq_ok_iff.mp hk
  use congrArg Prod.fst hc, hr
  constructor
  · rw [hs, hn]
  · rw [(Catalog.gains_of_create hk).get?, if_pos rfl]

/-- A configuration that an import left in the store is what its document gives.  Its name
is not blank and was not taken, and leads to it from now on. -/
theorem of_stored? (h : (announcingBench settings announce).fulfil o x = (ending, y))
    (hc : ending.stored? = some c) :
  convert settings o.destination o.document = .ok c ∧ refusal? c = none ∧
    x.inner.1.catalog.get? c.name = none ∧ y.inner.1.catalog.get? c.name = some c
  := by
  have hr := (announcingBench settings announce).course_importDocument o.cancelled o.document
    o.destination x
  have hk := ((Local.keeps_get? (convert settings) c.name c).announcingBy announce).traced
  rw [Workbench.fulfil] at h
  rw [h] at hr
  obtain ⟨s₁, s₂, answer, converted, created, announced⟩ := hr.of_stored? hc
  obtain ⟨hd, hr, hn, hg⟩ := of_convert_create converted created
  use hd, hr, hn, hk.announce announced hg trivial

/-- Where the catalog has the configuration of a document, an import of this document for
whatever destination finds the name taken, and does nothing but to convert and to try. -/
theorem fulfil_of_get? {destination : Destination}
    (hc : convert settings destination o.document = .ok c) (hr : refusal? c = none)
    (hx : x.inner.1.catalog.get? c.name = some c) (ho : o.cancelled = false) :
  (announcingBench settings announce).fulfil o x =
    (.notStored (.nameTaken c.name),
      { exchanges := x.exchanges ++
          [.convert o.destination o.document
            (.ok (c.placedAt (settings.place o.destination c.name)))] ++
          [.create false (c.placedAt (settings.place o.destination c.name))
            (.error (.nameTaken c.name))]
        inner := x.inner })
  := by
  have hd := convert_of_convert hc o.destination
  rw [Workbench.fulfil, ho]
  apply Workbench.Course.eq
  apply Workbench.Course.notStored
  · apply Workbench.traced_convert
    apply congrArg (fun r => (r, x.inner)) hd
  · apply Workbench.traced_create
    have hk : x.inner.1.catalog.create false (c.placedAt (settings.place o.destination c.name)) =
        .error (.nameTaken c.name) := by
      apply Catalog.create_of_taken
      · rw [← hr]
        apply refusal?_congr rfl
      · apply hx
    apply congrArg (fun r => (r.1, r.2, x.inner.2)) (Local.create_of_error hk)

/-- Where the catalog has the configuration of a document, no import of this document for
whatever destination leaves anything in the store. -/
theorem stored?_of_get? {destination : Destination}
    (h : (announcingBench settings announce).fulfil o x = (ending, y))
    (hc : convert settings destination o.document = .ok c)
    (hx : x.inner.1.catalog.get? c.name = some c) :
  ending.stored? = none
  := by
  apply Option.eq_none_iff_forall_ne_some.mpr
  intro d hd
  obtain ⟨ho, -, hn, -⟩ := of_stored? h hd
  rw [convert_of_convert hc o.destination] at ho
  cases ho
  rw [show (c.placedAt _).name = c.name from rfl, hx] at hn
  cases hn

end

/-! ### Runs -/

/-- What an import does whose document gave the configuration `c` before. -/
structure Repeats {ν : Type} (c : ServerConfig)
    (u : Turn Order Ending (Traced Bool (Local × ν))) : Prop where
  /-- The name leads to the configuration. -/
  before : u.before.inner.1.catalog.get? c.name = some c
  /-- It still does afterwards. -/
  after : u.after.inner.1.catalog.get? c.name = some c
  /-- Unless the caller gave up, the import ends because the name is taken. -/
  reply : u.request.cancelled = false →
    u.reply = .notStored (.nameTaken c.name) ∧ u.reply.conflict? = some true
  /-- The document was converted and storing was tried, and that was all. -/
  exchanges : u.request.cancelled = false →
    ∃ d, d.name = c.name ∧
      u.after.exchanges = u.before.exchanges ++
        [.convert u.request.destination u.request.document (.ok d)] ++
        [.create false d (.error (.nameTaken c.name))]
  /-- Neither the catalog nor the feed was changed. -/
  inner : u.request.cancelled = false → u.after.inner = u.before.inner

/-- An import whose document gave a configuration before that can still be found repeats
that import. -/
theorem repeats_of_get? {ν : Type} {settings : Settings}
    {announce : Bool → ServerConfig → StateM ν (Except AnnounceFailure Unit)} {c : ServerConfig}
    {destination : Destination} {u : Turn Order Ending (Traced Bool (Local × ν))}
    (h : (announcingBench settings announce).fulfil u.request u.before = (u.reply, u.after))
    (hc : convert settings destination u.request.document = .ok c) (hr : refusal? c = none)
    (hu : u.before.inner.1.catalog.get? c.name = some c) :
  Repeats c u
  := by
  have hk := ((Local.keeps_get? (convert settings) c.name c).announcingBy announce).traced
  have hsame := fun ho => h.symm.trans (fulfil_of_get? hc hr hu ho)
  constructor
  · apply hu
  · have ha := hk.importDocument u.request.cancelled u.request.document u.request.destination hu
    rw [Workbench.fulfil] at h
    apply (congrArg (fun r => r.2.inner.1.catalog.get? c.name = some c) h).mp ha
  · intro ho
    have hreply : u.reply = .notStored (.nameTaken c.name) := congrArg Prod.fst (hsame ho)
    rw [hreply]
    use rfl
    rfl
  · intro ho
    use c.placedAt (settings.place u.request.destination c.name), rfl
    apply congrArg (fun r => r.2.exchanges) (hsame ho)
  · intro ho
    apply congrArg (fun r => r.2.inner) (hsame ho)

/-- Of all imports of a document at most one leaves a configuration in the store; it goes
where that import says.  Every import of the document behind it repeats it, wherever the
configuration was to go. -/
theorem imports_of_document {ν : Type} (settings : Settings)
    (announce : Bool → ServerConfig → StateM ν (Except AnnounceFailure Unit)) (capacity : Nat)
    (n : ν) (orders : List Order) :
  let run := history (announcingBench settings announce).fulfil ⟨[], .ofCapacity capacity, n⟩ orders
  (∀ document,
      run.countP (fun t => t.request.document = document && t.reply.stored?.isSome) ≤ 1) ∧
    run.Pairwise fun t u => ∀ c, t.reply.stored? = some c →
      u.request.document = t.request.document →
        (c.tenant, c.pathPrefix) = settings.place t.request.destination c.name ∧ Repeats c u
  := by
  intro run
  have hp : run.Pairwise fun t u => ∀ c, t.reply.stored? = some c →
      u.before.inner.1.catalog.get? c.name = some c := by
    apply pairwise_history (K := fun (t : Turn Order Ending (Traced Bool (Local × ν))) x =>
      ∀ c, t.reply.stored? = some c → x.inner.1.catalog.get? c.name = some c)
    · intro t ht c hc
      apply (of_stored? ht hc).2.2.2
    · intro t o x hx c hc
      have hk := ((Local.keeps_get? (convert settings) c.name c).announcingBy announce).traced
      apply hk.importDocument o.cancelled o.document o.destination (hx c hc)
  constructor
  · intro document
    apply countP_le_one
    apply hp.imp_of_mem
    intro t u ht hu htu h
    obtain ⟨hd, hs⟩ := Bool.and_eq_true_iff.mp h
    obtain ⟨c, hc⟩ := Option.isSome_iff_exists.mp hs
    obtain ⟨ho, -⟩ := of_stored? (step_of_mem_history ht) hc
    by_cases hud : u.request.document = document
    · rw [of_decide_eq_true hd, ← hud] at ho
      rw [stored?_of_get? (step_of_mem_history hu) ho (htu c hc), Option.isSome_none,
        Bool.and_false]
    · rw [decide_eq_false hud, Bool.false_and]
  · apply hp.imp_of_mem
    intro t u ht hu htu c hc hd
    obtain ⟨ho, hr, -⟩ := of_stored? (step_of_mem_history ht) hc
    use place_of_convert ho
    rw [← hd] at ho
    apply repeats_of_get? (step_of_mem_history hu) ho hr (htu c hc)

/-- A document with one operation. -/
def smallDocument : List UInt8 :=
  ("\x7b\"openapi\":\"3.0\",\"info\":\x7b\"title\":\"T\",\"version\":\"1\"\x7d," ++
    "\"paths\":\x7b\"/a\":\x7b\"get\":\x7b\"responses\":\x7b\x7d\x7d\x7d\x7d\x7d").toList.map
      fun c => c.toNat.toUInt8

/-- A workbench whose feed always fails. -/
def silentBench : Workbench Bool (Traced Bool (Local × Unit)) :=
  announcingBench .standard fun _ _ n => (.error .cancelled, n)

set_option maxRecDepth 10000 in
/-- The small document is stored even if it cannot be announced. -/
theorem isSome_stored?_smallDocument :
  (silentBench.fulfil ⟨smallDocument, .byConvention, false⟩
    ⟨[], .ofCapacity 1, ()⟩).1.stored?.isSome = true
  := by
  decide +kernel

/-- Of two imports of a document of which the first stores a configuration and the second
repeats it, the second is told that the name is taken. -/
theorem pair_of_pairwise {ν : Type} {step : Order → StateM (Traced Bool (Local × ν)) Ending}
    {x : Traced Bool (Local × ν)} {document : List UInt8} {first second : Destination}
    {K : Turn Order Ending (Traced Bool (Local × ν)) → ServerConfig → Prop}
    (hs : (step ⟨document, first, false⟩ x).1.stored?.isSome = true)
    (hp : (history step x [⟨document, first, false⟩, ⟨document, second, false⟩]).Pairwise
      fun t u => ∀ c, t.reply.stored? = some c → u.request.document = t.request.document →
        K t c ∧ Repeats c u) :
  ∃ t u c, history step x [⟨document, first, false⟩, ⟨document, second, false⟩] = [t, u] ∧
    t.reply.stored? = some c ∧ u.reply = .notStored (.nameTaken c.name)
  := by
  obtain ⟨c, hc⟩ := Option.isSome_iff_exists.mp hs
  obtain ⟨ht, -⟩ := List.pairwise_cons.mp hp
  obtain ⟨-, hu⟩ := ht _ (List.mem_singleton_self _) c hc rfl
  exact ⟨_, _, c, rfl, hc, (hu.reply rfl).1⟩

/-- Imported twice, to two places and with a feed that always fails, the small document is
stored once, and the second import is told that the name is taken. -/
theorem imports_of_smallDocument :
  ∃ t u c,
    history silentBench.fulfil ⟨[], .ofCapacity 1, ()⟩
        [⟨smallDocument, .byConvention, false⟩, ⟨smallDocument, .explicit "acme" "/t", false⟩] =
          [t, u] ∧
      t.reply.stored? = some c ∧ u.reply = .notStored (.nameTaken c.name)
  := by
  have hp := (imports_of_document .standard (fun _ _ n => (.error .cancelled, n)) 1 ()
    [⟨smallDocument, .byConvention, false⟩, ⟨smallDocument, .explicit "acme" "/t", false⟩]).2
  change List.Pairwise _ (history silentBench.fulfil _ _) at hp
  apply pair_of_pairwise isSome_stored?_smallDocument hp

end ApiIntake.Import
