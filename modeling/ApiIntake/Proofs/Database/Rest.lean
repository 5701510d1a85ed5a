import ApiIntake.Database.Relay
import ApiIntake.Database.Migration
import ApiIntake.Proofs.Database.Transactions
import ApiIntake.Proofs.Run

/-!
# Nodes at rest

A node is at rest if it waits for a call, its pool is open with no session inside a
transaction, and no statement is told to fail (`Node.AtRest`).  Its statements do what they
do, and if their caller does not give up, they leave it at rest; what they change are the
tables (`Node.Answers`).
-/

namespace ApiIntake.Database

/-- What comes back for an answer that is not given up. -/
def Reply.ofAnswer : Except SqlError Answer → Reply
  | .ok answer => .answered answer
  | .error e => .failed e

/-- If no statement is told to fail, each does what it does. -/
theorem Server.run_eq_perform {s : Server} (h : s.faults = []) (session : Session)
    (statement : Statement) :
  s.run session statement = { s with log := s.log ++ [statement] }.perform session statement
  := by
  obtain ⟨tables, nextEventId, faults, refusal, log⟩ := s
  cases h
  rfl

/-- On a database with the given tables and nothing told to fail, a statement of a session is
answered, and leaves the session and the tables as given. -/
def Server.Performs (tables : Tables) (session : Session) (statement : Statement)
    (answer : Answer) (session' : Session) (tables' : Tables) : Prop :=
  ∀ s : Server, s.tables = tables → s.faults = [] →
    ∃ sent s', s.perform session statement = (⟨.ok answer, session', sent⟩, s') ∧
      s'.tables = tables' ∧ s'.faults = []

/-- On a database with the given tables a statement of a session fails. -/
def Server.Refuses (tables : Tables) (session : Session) (statement : Statement)
    (e : SqlError) : Prop :=
  ∀ s : Server, s.tables = tables → s.perform session statement = s.fail session e

namespace Server

variable {tables tables' : Tables} {row : ConfigRow} {e : SqlError}

/-- A transaction is begun on the tables as they are. -/
theorem performs_begin (tables : Tables) :
  Performs tables none .begin .done (.begun tables) tables
  := by
  rintro s rfl hf
  exact ⟨[], s, rfl, rfl, hf⟩

/-- A transaction that commits makes its changes. -/
theorem performs_commit {x : Transaction} (live : Session.isAborted (some x) = false)
    (h : tables.applyAll x.changes = .ok tables') :
  Performs tables (some x) .commit .done none tables'
  := by
  rintro s rfl hf
  rw [perform_of_live live, execute, h]
  exact ⟨x.payloads, { s with tables := tables' }, rfl, rfl, hf⟩

/-- A row that is refused is not inserted. -/
theorem refuses_insertConfig (h : tables.refusal? (.config row) = some e) :
  Refuses tables (.begun tables) (.insertConfig row) e
  := by
  rintro s rfl
  rw [perform_of_live rfl, execute, insert.eq_def, view_begun, h]

/-- Any other row is a change of its transaction. -/
theorem performs_insertConfig (h : tables.refusal? (.config row) = none) :
  Performs tables (.begun tables) (.insertConfig row) .done
    (some ⟨tables, [.config row], [], false⟩) tables
  := by
  rintro s rfl hf
  rw [perform_of_live rfl, execute, insert.eq_def, view_begun, h]
  exact ⟨[], s, rfl, rfl, hf⟩

/-- Outside of transactions a configuration is looked up in the tables. -/
theorem performs_selectConfig (tables : Tables) (name : String) :
  Performs tables none (.selectConfig name) (.config (tables.config? name)) none tables
  := by
  rintro s rfl hf
  exact ⟨[], s, rfl, rfl, hf⟩

/-- Outside of transactions the configurations are those of the tables. -/
theorem performs_selectConfigs (tables : Tables) :
  Performs tables none .selectConfigs (.configs tables.sortedConfigs) none tables
  := by
  rintro s rfl hf
  exact ⟨[], s, rfl, rfl, hf⟩

end Server

namespace Node

/-- A node that waits for a call, on a database with the given tables. -/
structure AtRest (n : Node) (tables : Tables) : Prop where
  /-- The database has the tables. -/
  tables : n.server.tables = tables
  /-- No statement is told to fail. -/
  faults : n.server.faults = []
  /-- No session of the pool is inside a transaction. -/
  idle : ∀ p ∈ n.idle, p = .outside
  /-- The pool is open. -/
  isOpen : n.isOpen = true
  /-- No caller has given up. -/
  gaveUp : n.gaveUp = false

/-- At a node a call comes to an answer, and leaves it at rest with the given tables. -/
structure Answers {α : Type} (m : StateM Node α) (n : Node) (a : α) (tables : Tables) : Prop where
  /-- The answer. -/
  answer : (m n).1 = a
  /-- The node is left at rest. -/
  atRest : AtRest (m n).2 tables

section

variable {α β : Type} {m : StateM Node α} {n : Node} {a : α} {b : β} {tables tables' : Tables}

/-- A node at rest answers if nothing is to be done. -/
theorem answers_pure (h : AtRest n tables) (a : α) :
  Answers (pure a) n a tables
  := by
  exact ⟨rfl, h⟩

/-- What goes on behind an answer goes on at a node at rest. -/
theorem Answers.bind {f : α → StateM Node β} (h : Answers m n a tables)
    (hf : ∀ n, AtRest n tables → Answers (f a) n b tables') :
  Answers (m >>= f) n b tables'
  := by
  have hn := hf (m n).2 h.atRest
  rw [← h.answer] at hn
  exact ⟨hn.answer, hn.atRest⟩

end

variable {n : Node} {t : Token} {tables tables' : Tables} {session session' : Session}
  {statement : Statement} {answer : Answer} {e : SqlError}

/-! ### Pool and statements -/

/-- A call begins at a node at rest as at any time. -/
theorem answers_beginCall (h : AtRest n tables) :
  Answers beginCall n () tables
  := by
  use rfl
  exact ⟨h.tables, h.faults, h.idle, h.isOpen, rfl⟩

/-- A session that is taken out of the pool is inside no transaction. -/
theorem answers_acquire (h : AtRest n tables) :
  Answers acquire n (.ok .outside) tables
  := by
  obtain ⟨server, idle, isOpen, gaveUp, id, feed, listeners, arrived, closing⟩ := n
  obtain ⟨ht, hf, hidle, rfl, hg⟩ := h
  cases idle with
  | nil => exact ⟨rfl, ht, hf, hidle, rfl, hg⟩
  | cons p idle =>
      obtain ⟨rfl, hrest⟩ := List.forall_mem_cons.mp hidle
      exact ⟨rfl, ht, hf, hrest, rfl, hg⟩

/-- A session that is put back is inside no transaction. -/
theorem answers_release (h : AtRest n tables) :
  Answers (release .outside) n () tables
  := by
  use rfl
  constructor
  · apply h.tables
  · apply h.faults
  · intro p hp
    obtain hp | hp := List.mem_append.mp hp
    · apply h.idle p hp
    · apply List.mem_singleton.mp hp
  · apply h.isOpen
  · apply h.gaveUp

/-- A statement that is not given up does what it does. -/
theorem answers_send (h : AtRest n tables) (ht : t.cancelAt = none)
    (hp : Server.Performs tables session statement answer session' tables') :
  Answers (send t session statement) n (.answered answer, session') tables'
  := by
  have hrun := Server.run_eq_perform h.faults session statement
  obtain ⟨sent, s', hperform, htables, hfaults⟩ :=
    hp { n.server with log := n.server.log ++ [statement] } h.tables h.faults
  constructor
  · simp only [send, hrun, hperform, ht]
    rfl
  · constructor
    · simpa only [send, hrun, hperform] using htables
    · simpa only [send, hrun, hperform] using hfaults
    · apply h.idle
    · apply h.isOpen
    · simp [send, h.gaveUp, ht]

/-- A statement that is refused changes no table. -/
theorem answers_send_of_refuses (h : AtRest n tables) (ht : t.cancelAt = none)
    (hr : Server.Refuses tables session statement e) :
  ∃ session', Answers (send t session statement) n (.failed e, session') tables
  := by
  have hrun := Server.run_eq_perform h.faults session statement
  have hfail := hr { n.server with log := n.server.log ++ [statement] } h.tables
  use n.server.behindFailure session
  constructor
  · simp only [send, hrun, hfail, Server.fail, ht]
    rfl
  · constructor
    · simpa only [send, hrun, hfail, Server.fail] using h.tables
    · simpa only [send, hrun, hfail, Server.fail] using h.faults
    · apply h.idle
    · apply h.isOpen
    · simp [send, h.gaveUp, ht]

/-- A query answers what its statement answers. -/
theorem answers_query (h : AtRest n tables)
    (hp : Server.Performs tables none statement answer none tables) :
  Answers (query statement) n (.ok answer) tables
  := by
  rw [query]
  apply (answers_acquire h).bind
  intro n h
  apply (answers_send h rfl hp).bind
  intro n h
  apply (answers_release h).bind
  intro n h
  apply answers_pure h

/-! ### The first connection -/

/-- The statements of the migration change nothing. -/
theorem performs_of_mem_migration {statement : Statement} {text : String}
    (hs : (statement, text) ∈ migration) (tables : Tables) :
  Server.Performs tables none statement .done none tables
  := by
  simp only [migration, List.mem_cons, Prod.mk.injEq, List.not_mem_nil, or_false] at hs
  intro s ht hf
  obtain ⟨rfl, -⟩ | ⟨rfl, -⟩ | ⟨rfl, -⟩ := hs
  · exact ⟨[], s, rfl, ht, hf⟩
  · exact ⟨[], s, rfl, ht, hf⟩
  · exact ⟨[], s, rfl, ht, hf⟩

/-- Statements that change nothing are run to the last. -/
theorem answers_runAll {statements : List (Statement × String)} (h : AtRest n tables)
    (hs : ∀ s ∈ statements, Server.Performs tables none s.1 .done none tables) :
  Answers (runAll statements) n (.ok ()) tables
  := by
  induction statements generalizing n with
  | nil => apply answers_pure h
  | cons s rest ih =>
      obtain ⟨hs, hrest⟩ := List.forall_mem_cons.mp hs
      apply (answers_query h hs).bind
      intro n h
      apply ih h hrest

/-- A node connects to a database that takes connections, and makes its tables. -/
theorem answers_connect {server : Server} (hr : server.refusal = none) (hf : server.faults = [])
    (id : String) (feed : Feed.Broadcast) (poolSize : Nat) :
  Answers connect (ofServer server id feed poolSize) (.ok ()) server.tables
  := by
  have h : AtRest (ofServer server id feed poolSize) server.tables := by
    refine ⟨rfl, hf, ?_, rfl, rfl⟩
    intro p hp
    apply List.eq_of_mem_replicate hp
  rw [connect]
  have hget : Answers get (ofServer server id feed poolSize) (ofServer server id feed poolSize)
      server.tables := ⟨rfl, h⟩
  apply hget.bind
  intro n h
  rw [ofServer, hr]
  apply answers_runAll h
  rintro ⟨statement, text⟩ hs
  apply performs_of_mem_migration hs

end Node

end ApiIntake.Database
