import ApiIntake.EventStream.Reader
import ApiIntake.Proofs.EventStream.Events
import ApiIntake.Proofs.Feed.JsonForm
import ApiIntake.Proofs.Feed.Reading
import ApiIntake.Proofs.Run

/-!
# The feed read back

Who reads the event stream of a subscriber finds in it what the subscriber read, and nothing else
(`feed_reads_back`): one event for each announcement and each gap, in order, and then the end of
the stream.  The data of an announcement is read as the announcement, whatever texts it holds.
-/

namespace ApiIntake.EventStream

open ApiIntake.Feed (Delivery Update)
open ApiIntake.Text (utf8)

/-! ### The data of an event -/

/-- Whether the numbers of an item are numbers of 64 bits. -/
def IsNumbered : Delivery → Prop
  | .updated u => u.eventId < Update.eventIdBound
  | .lagged missed => missed < Update.eventIdBound

/-- The event in which an item is read. -/
def NamedEvent.ofDelivery : Delivery → NamedEvent
  | .updated u => ⟨Event.updatedName, some (toString u.eventId), u.toJson⟩
  | .lagged missed => ⟨Event.laggedName, none, .int missed⟩

/-- The number of announcements that a gap skips, if an item is one. -/
def missed? : Delivery → Option Nat
  | .updated _ => none
  | .lagged missed => some missed

variable {d : Delivery}

/-- The data of an event is the text of a value. -/
theorem data_ofDelivery (d : Delivery) :
  (Event.ofDelivery d).data = (NamedEvent.ofDelivery d).data.compact
  := by
  cases d with
  | updated u => rfl
  | lagged missed => rfl

/-- The data of an event holds texts and numbers of 64 bits. -/
theorem isPlain_ofDelivery (hd : IsNumbered d) :
  (NamedEvent.ofDelivery d).data.isPlain = true
  := by
  cases d with
  | updated u => apply Update.isPlain_toJson hd
  | lagged missed => apply Json.isPlain_int hd

/-- The data of an event is read as its value. -/
theorem parse?_ofDelivery (hd : IsNumbered d) :
  Json.parse? (Event.ofDelivery d).data = some (NamedEvent.ofDelivery d).data
  := by
  have hdepth : (NamedEvent.ofDelivery d).data.depth ≤ Json.depthLimit := by
    cases d with
    | updated u =>
        change 1 ≤ Json.depthLimit
        decide
    | lagged missed => apply Nat.zero_le
  rw [data_ofDelivery, Json.parse?_compact (isPlain_ofDelivery hd) hdepth]

/-- A number has one line. -/
theorem isUnbroken_toString (n : Nat) :
  Event.isUnbroken (toString n)
  := by
  have hdigits : ∀ c ∈ (toString n).toList, c.isDigit = true := by
    intro c hc
    have hn : (toString n).toList = Nat.toDigits 10 n := String.toList_ofList
    rw [hn] at hc
    apply Text.isDigit_of_mem_toDigits hc
  constructor
  · intro h
    cases hdigits _ h
  · intro h
    cases hdigits _ h

/-- No text of an announcement breaks a line of its event. -/
theorem framed_ofDelivery (hd : IsNumbered d) :
  (Event.ofDelivery d).Framed
  := by
  constructor
  · cases d with
    | updated u =>
        change Event.isUnbroken Event.updatedName
        decide
    | lagged missed =>
        change Event.isUnbroken Event.laggedName
        decide
  · intro i hi
    cases d with
    | updated u =>
        obtain rfl := Option.some.inj hi
        apply isUnbroken_toString
    | lagged missed => cases hi
  · rw [data_ofDelivery]
    apply Json.notMem_compact (isPlain_ofDelivery hd) rfl

/-! ### Reading one event after another -/

/-- What a reader answers that is asked for an event of a name again and again. -/
def readings (r : Reader) (name : String) (times : Nat) : List (Except ReadError NamedEvent) :=
  (history (fun name r => Reader.next r name) r (List.replicate times name)).map Turn.reply

/-- The first answer, and the others behind it. -/
theorem readings_succ (r : Reader) (name : String) (times : Nat) :
  readings r name (times + 1) = (r.next name).1 :: readings (r.next name).2 name times
  := rfl

/-- At the end of a stream there are no more events. -/
theorem readings_end (name : String) (times : Nat) :
  readings ⟨[], false⟩ name times = List.replicate times (.error (.ended name))
  := by
  induction times with
  | zero => rfl
  | succ times ih =>
      rw [readings_succ, List.replicate_succ, ← ih]
      rfl

/-- The event of an item is found by its name, and its data is read. -/
theorem next_ofDelivery (hd : IsNumbered d) (rest : List Item) (goesOn : Bool) :
  Reader.next ⟨.event (Event.ofDelivery d).fields :: rest, goesOn⟩ (Event.ofDelivery d).name =
    (.ok (NamedEvent.ofDelivery d), ⟨rest, goesOn⟩)
  := by
  have hname : (Event.ofDelivery d).fields.name = some (Event.ofDelivery d).name := rfl
  have hparse : Json.parse? ((Event.ofDelivery d).fields.data.getD "") =
      some (NamedEvent.ofDelivery d).data := parse?_ofDelivery hd
  simp only [Reader.next, Reader.find, if_pos hname, hparse]
  cases d <;> rfl

/-- An event of another name is passed over. -/
theorem readings_skip {name : String} (hd : (Event.ofDelivery d).name ≠ name) (rest : List Item)
    (goesOn : Bool) (times : Nat) :
  readings ⟨.event (Event.ofDelivery d).fields :: rest, goesOn⟩ name times =
    readings ⟨rest, goesOn⟩ name times
  := by
  have hname : (Event.ofDelivery d).fields.name ≠ some name := by
    intro h
    apply hd (Option.some.inj h)
  have hnext : Reader.next ⟨.event (Event.ofDelivery d).fields :: rest, goesOn⟩ name =
      Reader.next ⟨rest, goesOn⟩ name := by
    simp only [Reader.next, Reader.find, if_neg hname]
  cases times with
  | zero => rfl
  | succ times => rw [readings_succ, readings_succ, hnext]

/-- If the items of one kind are those whose event has some name, they are read under that name
one after another, and then the stream ends. -/
theorem readings_of_kind {α : Type} {kind : Delivery → Option α} {event : α → NamedEvent}
    {name : String}
    (named : ∀ d, match kind d with
      | some a => (Event.ofDelivery d).name = name ∧ NamedEvent.ofDelivery d = event a
      | none => (Event.ofDelivery d).name ≠ name)
    {ds : List Delivery} (numbered : ∀ d ∈ ds, IsNumbered d) (times : Nat) :
  readings ⟨ds.map fun d => .event (Event.ofDelivery d).fields, false⟩ name
      ((ds.filterMap kind).length + times) =
    (ds.filterMap kind).map (fun a => .ok (event a)) ++
      List.replicate times (.error (.ended name))
  := by
  induction ds with
  | nil =>
      rw [List.filterMap_nil, List.length_nil, Nat.zero_add]
      apply readings_end
  | cons d ds ih =>
      rw [List.forall_mem_cons] at numbered
      have hd := named d
      rw [List.map_cons]
      cases hk : kind d with
      | none =>
          rw [hk] at hd
          rw [readings_skip hd, List.filterMap_cons_none hk, ih numbered.2]
      | some a =>
          rw [hk] at hd
          obtain ⟨rfl, heq⟩ := hd
          rw [List.filterMap_cons_some hk, List.length_cons, Nat.add_right_comm, readings_succ,
            next_ofDelivery numbered.1, heq, ih numbered.2]
          rfl

/-! ### The feed -/

/-- Who reads the stream of a feed meets one event for each item, whatever texts the items hold
and wherever the stream is cut.  Under the name of announcements it reads these in order, each
with its number as the id and with data that is read as the announcement; under the name of gaps
it reads how many announcements each skips; and then the stream ends. -/
theorem feed_reads_back {ds : List Delivery} (numbered : ∀ d ∈ ds, IsNumbered d)
    {pieces : List (List UInt8)} (arrived : pieces.flatten = utf8 (textOf ds)) :
  items pieces = ds.map (fun d => .event (Event.ofDelivery d).fields) ∧
    (∀ times, readings (.ofPieces pieces false) Event.updatedName
        ((ds.filterMap Delivery.update?).length + times) =
      (ds.filterMap Delivery.update?).map
          (fun u => .ok ⟨Event.updatedName, some (toString u.eventId), u.toJson⟩) ++
        List.replicate times (.error (.ended Event.updatedName))) ∧
    (∀ u ∈ ds.filterMap Delivery.update?, Update.ofJson? u.toJson = some u) ∧
    (∀ times, readings (.ofPieces pieces false) Event.laggedName
        ((ds.filterMap missed?).length + times) =
      (ds.filterMap missed?).map (fun missed => .ok ⟨Event.laggedName, none, .int missed⟩) ++
        List.replicate times (.error (.ended Event.laggedName)))
  := by
  have hitems : items pieces = ds.map fun d => .event (Event.ofDelivery d).fields := by
    have harrived : pieces.flatten =
        utf8 (String.join ((ds.map Event.ofDelivery).map Event.text)) := by
      rw [arrived, textOf, List.map_map]
      rfl
    rw [items_of_events _ harrived, List.map_map]
    · rfl
    · intro e he
      obtain ⟨d, hd, rfl⟩ := List.mem_map.mp he
      apply framed_ofDelivery (numbered d hd)
  refine ⟨hitems, ?_, ?_, ?_⟩
  · intro times
    rw [Reader.ofPieces, hitems]
    apply readings_of_kind _ numbered
    intro d
    cases d with
    | updated u => exact ⟨rfl, rfl⟩
    | lagged missed =>
        change Event.laggedName ≠ Event.updatedName
        decide
  · intro u hu
    obtain ⟨d, hd, hu⟩ := List.mem_filterMap.mp hu
    cases d with
    | updated v =>
        obtain rfl := Option.some.inj hu
        apply Update.ofJson?_toJson (numbered _ hd)
    | lagged missed => cases hu
  · intro times
    rw [Reader.ofPieces, hitems]
    apply readings_of_kind _ numbered
    intro d
    cases d with
    | updated u =>
        change Event.updatedName ≠ Event.laggedName
        decide
    | lagged missed => exact ⟨rfl, rfl⟩

/-- A gap, and an announcement of which the texts look like other events. -/
def forgery : List Delivery :=
  [.lagged 7,
   .updated
    { name := "a\n\nevent: lagged\ndata: 9\n\n"
      tenant := "ü\r\nid: 1"
      pathPrefix := "/\"☃\""
      configHash := ""
      eventId := 0xFFFFFFFFFFFFFFFF }]

/-- Texts that look like other events are read as texts, if every byte arrives alone. -/
theorem feed_reads_back_forgery :
  (∀ d ∈ forgery, IsNumbered d) ∧
    ((utf8 (textOf forgery)).map ([·])).flatten = utf8 (textOf forgery) ∧
    readings (.ofPieces ((utf8 (textOf forgery)).map ([·])) false) Event.updatedName 2 =
      [.ok ⟨Event.updatedName, some "18446744073709551615", Update.toJson
        ⟨"a\n\nevent: lagged\ndata: 9\n\n", "ü\r\nid: 1", "/\"☃\"", "", 0xFFFFFFFFFFFFFFFF⟩⟩,
        .error (.ended Event.updatedName)] ∧
    readings (.ofPieces ((utf8 (textOf forgery)).map ([·])) false) Event.laggedName 2 =
      [.ok ⟨Event.laggedName, none, .int 7⟩, .error (.ended Event.laggedName)]
  := by
  have numbered : ∀ d ∈ forgery, IsNumbered d := by
    rw [forgery, List.forall_mem_cons, List.forall_mem_singleton]
    constructor
    · change 7 < Update.eventIdBound
      decide
    · change 0xFFFFFFFFFFFFFFFF < Update.eventIdBound
      decide
  have arrived : ((utf8 (textOf forgery)).map ([·])).flatten = utf8 (textOf forgery) := by
    rw [← List.flatMap_def, List.flatMap_singleton']
  obtain ⟨-, hupdated, -, hlagged⟩ := feed_reads_back numbered arrived
  have hid : toString 0xFFFFFFFFFFFFFFFF = "18446744073709551615" := by decide +kernel
  have hread := hupdated 1
  simp only [forgery, List.filterMap_cons, Delivery.update?, List.filterMap_nil, List.map_cons,
    List.map_nil, hid] at hread
  exact ⟨numbered, arrived, hread, hlagged 1⟩

end ApiIntake.EventStream
