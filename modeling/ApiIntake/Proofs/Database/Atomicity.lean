import ApiIntake.Proofs.Database.Announcing
import ApiIntake.Proofs.Store.Catalog
import ApiIntake.Proofs.Tool.JsonForm

/-!
# Writing all or nothing

What a node writes into the database it writes as a whole or not at all, wherever a statement
fails and whenever its caller gives up (`Node.writes_all_or_nothing`).  A configuration is stored
with its tenant and its path, or the tables stay as they are; an announcement brings one event,
one notification and one update on the feed, all of one number, or none of them.
-/

namespace ApiIntake.Database

open ApiIntake.Feed (AnnounceFailure Update)
open ApiIntake.Store (StoreFailure)

/-- The row holds a configuration, with the tenant and the path beside it. -/
structure ConfigRow.Holds (row : ConfigRow) (c : ServerConfig) : Prop where
  /-- The name. -/
  name : row.name = c.name
  /-- Whom it belongs to. -/
  tenant : row.tenant = c.tenant
  /-- Where it is mounted. -/
  pathPrefix : row.pathPrefix = c.pathPrefix
  /-- The JSON form is read as the configuration. -/
  config : ServerConfig.ofJson? row.config = some c

/-- The row of a configuration holds it. -/
theorem ConfigRow.holds_ofConfig (c : ServerConfig) :
  (ConfigRow.ofConfig c).Holds c
  := ⟨rfl, rfl, rfl, c.ofJson?_toJson⟩

namespace Node

variable {t : Token} {c : ServerConfig} {n m : Node} {stage : Stage}

/-! ### What is sent -/

/-- Nothing is sent or recorded before an announcement is committed, and then its event is, under
a new number, and its notification. -/
def Sends (c : ServerConfig) (n m : Node) (stage : Stage) : Prop :=
  (m.server.tables = n.server.tables ∧ m.arrived = n.arrived ∧ ∀ u, stage ≠ .ended (.ok u)) ∨
    ∃ id : Nat, stage = .ended (.ok (.ofConfig c id)) ∧
      m.server.tables = n.server.tables.putEvent (rowOf (.ofConfig c id)) ∧
      m.arrived = n.arrived ++ [Dispatch.payload ⟨n.id, .ofConfig c id⟩] ∧
      (id : Int) ∉ n.server.tables.numbers

/-- Nothing is sent or recorded before an announcement begins. -/
theorem sends_startSending (t : Token) (c : ServerConfig) (n : Node) :
  Sends c n (startSending t n).2 (startSending t n).1
  := by
  left
  obtain ⟨idle, -, ⟨e, h⟩ | ⟨session, -, h⟩⟩ := startSending_cases t n
  · rw [h]
    use rfl, rfl
    rintro u ⟨⟩
  · rw [h]
    use rfl, rfl
    rintro u ⟨⟩

/-- The next statement of an announcement sends and records nothing, or everything. -/
theorem Sends.advance (h : Sends c n m stage) (hp : Progress t c n stage m) :
  Sends c n (advance n.id t c stage m).2 (advance n.id t c stage m).1
  := by
  obtain ⟨r, rfl⟩ | hgoing := stage.ended_or_going
  · apply h
  · obtain ⟨same, harrived, -⟩ | ⟨id, hstage, -⟩ := h
    · have hstep : Step n.id t c m stage (Node.advance n.id t c stage m) :=
        step_advance hp.sound.inTransaction hgoing
      have heffect := hstep.effect hp.sound
      rw [same, harrived] at heffect
      obtain heffect | ⟨id, hstage, htables, hsent, hnew, -⟩ := heffect
      · exact .inl heffect
      · exact .inr ⟨id, hstage, htables, hsent, hnew⟩
    · apply absurd hstage (hgoing _)

/-- An announcement that is brought to its end has sent and recorded everything or nothing. -/
theorem sends_sendUpdate (t : Token) (c : ServerConfig) (n : Node) :
  Sends c n (sendUpdate n.id t c n).2 (.ended (sendUpdate n.id t c n).1)
  := by
  have hp := progress_startSending t c n
  have hs := (sends_startSending t c n).advance hp |>.advance hp.advance
    |>.advance hp.advance.advance |>.advance hp.advance.advance.advance
  have hsend := sendUpdate_eq n.id t c n
  simp only [bind_apply] at hsend
  rw [hsend] at hs
  apply hs

/-! ### Posting -/

/-- Announces a configuration and leaves what has arrived to the listeners. -/
def post (t : Token) (c : ServerConfig) : StateM Node (Except AnnounceFailure Unit) := do
  match ← sendUpdate (← get).id t c with
  | .error e => return .error e
  | .ok update =>
    modify fun n => { n with feed := (n.feed.publish update).2 }
    return .ok ()

/-- An announcement is posted, and then the listeners relay what has arrived. -/
theorem announce_eq_post (t : Token) (c : ServerConfig) (n : Node) :
  announce t c n =
    match post t c n with
    | (.ok (), m) => (.ok (), (settle m).2)
    | (.error e, m) => (.error e, m)
  := by
  simp only [announce, post, bind_apply, get_apply]
  cases (sendUpdate n.id t c n).1 <;> rfl

/-- An announcement was made under a number: there is one event more, one notification and one
update on the feed. -/
structure Posted (c : ServerConfig) (id : Nat) (n m : Node) : Prop where
  /-- The event is put behind the others. -/
  tables : m.server.tables =
    { n.server.tables with events := n.server.tables.events ++ [rowOf (.ofConfig c id)] }
  /-- The notification is sent behind the others. -/
  arrived : m.arrived = n.arrived ++ [Dispatch.payload ⟨n.id, .ofConfig c id⟩]
  /-- The update is published. -/
  feed : m.feed = (n.feed.publish (.ofConfig c id)).2

/-- Nothing is recorded, sent or published. -/
structure Unposted (n m : Node) : Prop where
  /-- The tables are as they were. -/
  tables : m.server.tables = n.server.tables
  /-- No notification was sent. -/
  arrived : m.arrived = n.arrived
  /-- The feed is as it was. -/
  feed : m.feed = n.feed

/-- What was posted is not as if it was not. -/
theorem Posted.not_unposted {id : Nat} (h : Posted c id n m) :
  ¬ Unposted n m
  := by
  intro hu
  have ht := h.tables
  rw [hu.tables] at ht
  have hlen := congrArg (fun t => t.events.length) ht
  simp at hlen

/-- Posting does all or nothing. -/
theorem posts_post (t : Token) (c : ServerConfig) (n : Node) :
  ((post t c n).1 = .ok () ∧ ∃ id, Posted c id n (post t c n).2) ∨
    ∃ e, (post t c n).1 = .error e ∧ Unposted n (post t c n).2
  := by
  have hp := progress_sendUpdate t c n
  have hs := sends_sendUpdate t c n
  simp only [post, bind_apply, get_apply]
  generalize sendUpdate n.id t c n = r at hp hs ⊢
  obtain ⟨result, m⟩ := r
  cases result with
  | error e =>
      right
      obtain ⟨htables, harrived, -⟩ | ⟨id, ⟨⟩, -⟩ := hs
      exact ⟨e, rfl, htables, harrived, hp.feed⟩
  | ok u =>
      left
      obtain ⟨-, -, hgoing⟩ | ⟨id, ⟨⟩, htables, harrived, hnew⟩ := hs
      · apply absurd rfl (hgoing u)
      · refine ⟨rfl, id, ?_, harrived, ?_⟩
        · exact htables.trans (Tables.putEvent_of_notMem hnew)
        · exact congrArg (fun b => (b.publish (.ofConfig c id)).2) hp.feed

/-- What a call to store a configuration has replied tells all that it has done. -/
structure StoresWhole (c : ServerConfig) (n : Node) (result : Except StoreFailure Unit)
    (m : Node) : Prop where
  /-- It succeeded exactly if the name was new and its row now holds the configuration. -/
  ok_iff : result = .ok () ↔ n.server.tables.config? c.name = none ∧
    ∃ row, m.server.tables.config? c.name = some row ∧ row.Holds c
  /-- The row is the only one that came. -/
  added : result = .ok () → ∃ row : ConfigRow, row.Holds c ∧
    m.server.tables = { n.server.tables with configs := n.server.tables.configs ++ [row] }
  /-- If it failed, the tables are as they were. -/
  failed : ∀ e, result = .error e → m.server.tables = n.server.tables

/-- What a call to announce a configuration has replied tells all that it has done. -/
structure PostsWhole (c : ServerConfig) (n : Node) (result : Except AnnounceFailure Unit)
    (m : Node) : Prop where
  /-- It succeeded exactly if an announcement was made. -/
  ok_iff : result = .ok () ↔ ∃ id, Posted c id n m
  /-- If it failed, no part of an announcement was made. -/
  failed : ∀ e, result = .error e → Unposted n m

/-- Storing writes a row or nothing, and says which. -/
theorem storesWhole_create (t : Token) (c : ServerConfig) (n : Node) :
  StoresWhole c n (create t c n).1 (create t c n).2
  := by
  have h := stores_create t c n
  generalize create t c n = r at h
  cases h with
  | fails spares =>
      constructor
      · constructor
        · rintro ⟨⟩
        · rintro ⟨new, row, hrow, -⟩
          rw [spares.tables, new] at hrow
          cases hrow
      · rintro ⟨⟩
      · intro _ _
        apply spares.tables
  | stores keeps feed new tables =>
      have hput : n.server.tables.putConfig (.ofConfig c) = _ := Tables.putConfig_of_new new
      have hfound : (n.server.tables.putConfig (.ofConfig c)).config? c.name = _ :=
        Tables.config?_putConfig_of_new new
      constructor
      · constructor
        · intro _
          use new, .ofConfig c
          rw [tables, hfound]
          exact ⟨rfl, ConfigRow.holds_ofConfig c⟩
        · intro _
          rfl
      · intro _
        use .ofConfig c, ConfigRow.holds_ofConfig c
        rw [tables, hput]
      · rintro e ⟨⟩

/-- Posting makes an announcement or does nothing, and says which. -/
theorem postsWhole_post (t : Token) (c : ServerConfig) (n : Node) :
  PostsWhole c n (post t c n).1 (post t c n).2
  := by
  obtain ⟨hok, hposted⟩ | ⟨e, herror, hunposted⟩ := posts_post t c n
  · rw [hok]
    constructor
    · constructor
      · intro _
        apply hposted
      · intro _
        rfl
    · rintro e ⟨⟩
  · rw [herror]
    constructor
    · constructor
      · rintro ⟨⟩
      · rintro ⟨id, hposted⟩
        cases hposted.not_unposted hunposted
    · intro _ _
      apply hunposted

/-- Storing a configuration succeeds exactly if its name was new and its row, behind the others,
now holds it, with its tenant and its path; otherwise the tables are as they were.  Announcing
succeeds exactly if one event, one notification and one update of the same number have come about;
otherwise none of them has.  So it is whichever statements fail and whenever the caller gives
up. -/
theorem writes_all_or_nothing (t : Token) (c : ServerConfig) (n : Node) :
  StoresWhole c n (create t c n).1 (create t c n).2 ∧
    PostsWhole c n (post t c n).1 (post t c n).2 ∧
    announce t c n =
      match post t c n with
      | (.ok (), m) => (.ok (), (settle m).2)
      | (.error e, m) => (.error e, m)
  := by
  exact ⟨storesWhole_create t c n, postsWhole_post t c n, announce_eq_post t c n⟩

/-- A node on a database that has one configuration and no event. -/
def stocked : Node :=
  ofServer { Server.empty .reading with tables := ⟨[.ofConfig bareConfig], []⟩ } "node-1"
    (.ofCapacity 1) 5

/-- A caller that does not give up makes an announcement, and one that gives up while the event is
being recorded does not. -/
theorem writes_all_or_nothing_stocked :
  (∃ id, Posted bareConfig id stocked (post .live bareConfig stocked).2) ∧
    Unposted stocked (post ⟨false, some .insertEvent⟩ bareConfig stocked).2
  := by
  obtain ⟨-, hmade, -⟩ := writes_all_or_nothing .live bareConfig stocked
  obtain ⟨-, hgiven, -⟩ := writes_all_or_nothing ⟨false, some .insertEvent⟩ bareConfig stocked
  constructor
  · apply hmade.ok_iff.mp
    decide +kernel
  · apply hgiven.failed .cancelled
    decide +kernel

end Node

end ApiIntake.Database
