import ApiIntake.Proofs.Database.Replay

/-!
# How a configuration gets into the database

A configuration is stored in one transaction.  Whatever fails and whenever its caller gives
up, either nothing is changed and an error is replied, or its row is put behind the others
under a name that none of them has (`Node.stores_create`).  A configuration that is looked up
is read from a row that the session sees that is used next (`Node.finds_lookUp`).
-/

namespace ApiIntake.Database

open ApiIntake.Store (StoreFailure refusal?)

/-! ### Rows -/

namespace Tables

variable {t : Tables}

/-- A row under a new name is put behind the others. -/
theorem putConfig_of_new {row : ConfigRow} (h : t.config? row.name = none) :
  t.putConfig row = { t with configs := t.configs ++ [row] }
  := by
  have hf : t.configs.filter (fun r => r.name ≠ row.name) = t.configs := by
    apply List.filter_eq_self.mpr
    intro r hr
    have hne := List.find?_eq_none.mp h r hr
    simpa using hne
  rw [putConfig, hf]

/-- A row under a new name is found there. -/
theorem config?_putConfig_of_new {row : ConfigRow} (h : t.config? row.name = none) :
  (t.putConfig row).config? row.name = some row
  := by
  have hnone : t.configs.find? (fun r => r.name = row.name) = none := h
  rw [putConfig_of_new h, config?, List.find?_append, hnone, Option.none_or]
  apply List.find?_cons_of_pos
  apply decide_eq_true rfl

end Tables

namespace Node

variable {t : Token} {c : ServerConfig} {n m : Node} {p : Pooled}

/-- What a call may have done with the sessions of the pool. -/
def Leaves (t : Token) (n : Node) (idle : List Pooled) : Prop :=
  ∀ p ∈ idle, Returned t n.server (· ∈ n.idle) p

/-- Sessions that were there may be left. -/
theorem leaves_of_subset {idle : List Pooled} (h : ∀ p ∈ idle, p ∈ n.idle) :
  Leaves t n idle
  := fun p hp => .same (h p hp)

/-- One session more may be left. -/
theorem Leaves.concat {idle : List Pooled} (h : Leaves t n idle)
    (hp : Returned t n.server (· ∈ n.idle) p) :
  Leaves t n (idle ++ [p])
  := by
  intro q hmem
  obtain hmem | hmem := List.mem_append.mp hmem
  · apply h q hmem
  · rw [List.mem_singleton.mp hmem]
    apply hp

/-- What a call keeps at a node, whatever it changes. -/
structure Keeps (t : Token) (n m : Node) : Prop where
  /-- The name. -/
  id : m.id = n.id
  /-- The number of listeners. -/
  listeners : m.listeners = n.listeners
  /-- Whether the pool is open. -/
  isOpen : m.isOpen = n.isOpen
  /-- What the database was told and the numbers that it gave. -/
  later : n.server.After m.server
  /-- The sessions, up to those that it may leave. -/
  left : Leaves t n m.idle

/-- What a call leaves that changes no table and publishes nothing. -/
structure Spares (t : Token) (n m : Node) : Prop extends Keeps t n m where
  /-- The feed is as it was. -/
  feed : m.feed = n.feed
  /-- The tables are as they were. -/
  tables : m.server.tables = n.server.tables

/-- A node spares itself. -/
theorem spares_self (t : Token) (n : Node) :
  Spares t n n
  := ⟨⟨rfl, rfl, rfl, .refl _, leaves_of_subset fun _ hp => hp⟩, rfl, rfl⟩

/-! ### Storing -/

/-- A configuration that is not refused is stored in the session that is used next. -/
theorem create_eq (t : Token) (c : ServerConfig) (n : Node) :
  create t c n =
    if isCancelled t n then (.error .cancelled, n)
    else
      match refusal? c with
      | some e => (.error e, n)
      | none =>
        if n.isOpen then storeIn t c n.next { n with idle := n.idle.tail }
        else (.error (storeFailureOf c.name .closed), n)
  := by
  by_cases hc : isCancelled t n = true
  · simp [create, bind_apply, get_apply, pure_apply, hc]
  · cases hr : refusal? c with
    | some e => simp [create, bind_apply, get_apply, pure_apply, hc, hr]
    | none =>
        cases ho : n.isOpen with
        | false => simp [create, bind_apply, get_apply, pure_apply, hc, hr, acquire_eq, ho]
        | true => simp [create, bind_apply, get_apply, hc, hr, acquire_eq, ho]

/-- What comes of storing a configuration in a session, which is given back. -/
inductive Stored (t : Token) (c : ServerConfig) (p : Pooled) (n : Node) :
    Except StoreFailure Unit × Node → Prop
  /-- It fails and changes no table. -/
  | fails {e : StoreFailure} {server : Server} {gaveUp : Bool} {left : Pooled}
    (tables : server.tables = n.server.tables) (later : n.server.After server)
    (returned : Returned t n.server (· = p) left) :
    Stored t c p n (.error e, { n with server, gaveUp, idle := n.idle ++ [left] })
  /-- There is no configuration with its name, and its row is put in place. -/
  | stores {server : Server} {gaveUp : Bool} (new : n.server.tables.config? c.name = none)
    (tables : server.tables = n.server.tables.putConfig (.ofConfig c))
    (later : n.server.After server) :
    Stored t c p n (.ok (), { n with server, gaveUp, idle := n.idle ++ [.outside] })

/-- What comes of it at a node that has run a statement comes of it at the node before. -/
theorem Stored.of_same {server : Server} {gaveUp : Bool} {r : Except StoreFailure Unit × Node}
    (h : Stored t c p { n with server, gaveUp } r)
    (same : server.tables = n.server.tables) (after : n.server.After server) :
  Stored t c p n r
  := by
  cases h with
  | fails tables later returned =>
      apply Stored.fails (tables.trans same) (after.trans later)
      apply returned.of_later same after fun _ hp => .inl hp
  | stores new tables later =>
      dsimp only at new tables
      rw [same] at new tables
      apply Stored.stores new tables (after.trans later)

/-- Rows are inserted inside transactions. -/
theorem quiet_insertConfig (x : Transaction) (row : ConfigRow) :
  Quiet (some x) (.insertConfig row)
  := by
  apply quiet_of_execute (by rintro ⟨⟩)
  intro s
  apply quiet_insert

/-- The row in a transaction is committed if its name is not taken, or committing fails. -/
theorem stored_commitRow (t : Token) (c : ServerConfig) (p : Pooled) (start : Tables) (n : Node) :
  Stored t c p n (commitRow t c (some ⟨start, [.config (.ofConfig c)], [], false⟩) n)
  := by
  rw [commitRow, bind_apply]
  have hc := committed_send (x := ⟨start, [.config (.ofConfig c)], [], false⟩) t rfl n
  generalize send t (some ⟨start, [.config (.ofConfig c)], [], false⟩) .commit n = r at hc ⊢
  cases hc with
  | failed tables after => exact Stored.fails tables after .outside
  | committed tables after =>
      obtain ⟨hallowed, htables⟩ := Tables.of_applyAll_singleton tables
      rw [List.append_nil]
      exact Stored.stores (Tables.config?_of_refusal? hallowed) htables after

/-- A row is inserted and committed, or it fails. -/
theorem stored_insertRow (t : Token) (c : ServerConfig) (p : Pooled) (start : Tables) (n : Node) :
  Stored t c p n (insertRow t c (.begun start) n)
  := by
  rw [insertRow, bind_apply]
  have hq := quiet_insertConfig ⟨start, [], [], false⟩ (.ofConfig c)
  have hs := sent_send t (.begun start) (.insertConfig (.ofConfig c)) n
  generalize send t (.begun start) (.insertConfig (.ofConfig c)) n = r at hs ⊢
  obtain ⟨⟨reply, session'⟩, n'⟩ := r
  cases reply with
  | answered answer =>
      obtain ⟨effect, server, log, gaveUp, done, ok, rfl, rfl⟩ := hs.of_answered
      rw [Server.perform_of_live rfl, Server.execute, Session.begun, Server.insert] at done
      split at done
      · cases done
        cases ok
      · cases done
        rw [List.append_nil]
        have hcommit := stored_commitRow t c p start
          { n with server := { n.server with log }, gaveUp }
        exact hcommit.of_same rfl (Server.After.refl _).of_log
  | failed e =>
      obtain ⟨server, gaveUp, rfl, tables, later⟩ := hs.quiet hq
      exact Stored.fails tables later .outside
  | abandoned =>
      obtain ⟨server, gaveUp, rfl, tables, later⟩ := hs.quiet hq
      exact Stored.fails tables later .outside

/-- A configuration is stored in a transaction of a session, or it fails. -/
theorem stored_storeIn (t : Token) (c : ServerConfig) (p : Pooled) (n : Node) :
  Stored t c p n (storeIn t c p n)
  := by
  rw [storeIn, bind_apply]
  have hb := begun_send t p n
  generalize send t p.session .begin n = r at hb ⊢
  cases hb with
  | @begun server gaveUp tables after =>
      have hinsert := stored_insertRow t c p n.server.tables { n with server, gaveUp }
      exact hinsert.of_same tables after
  | failed tables after returned | abandoned tables after returned =>
      exact Stored.fails tables after returned

/-- What comes of storing a configuration. -/
inductive Stores (t : Token) (c : ServerConfig) (n : Node) : Except StoreFailure Unit × Node → Prop
  /-- It fails, and nothing is changed. -/
  | fails {e : StoreFailure} {m : Node} (spares : Spares t n m) : Stores t c n (.error e, m)
  /-- There is no configuration with its name, and its row is put in place. -/
  | stores {m : Node} (keeps : Keeps t n m) (feed : m.feed = n.feed)
    (new : n.server.tables.config? c.name = none)
    (tables : m.server.tables = n.server.tables.putConfig (.ofConfig c)) :
    Stores t c n (.ok (), m)

/-- Storing a configuration does one of these. -/
theorem stores_create (t : Token) (c : ServerConfig) (n : Node) :
  Stores t c n (create t c n)
  := by
  rw [create_eq]
  split
  · exact Stores.fails (spares_self t n)
  · split
    · exact Stores.fails (spares_self t n)
    · split
      · have hidle : Leaves t n n.idle.tail := leaves_of_subset fun _ => List.mem_of_mem_tail
        have h := stored_storeIn t c n.next { n with idle := n.idle.tail }
        generalize storeIn t c n.next { n with idle := n.idle.tail } = r at h ⊢
        cases h with
        | fails tables later returned =>
            have hleft := returned.of_later rfl (.refl n.server) fun q hq => hq ▸ n.next_mem
            exact Stores.fails ⟨⟨rfl, rfl, rfl, later, hidle.concat hleft⟩, rfl, tables⟩
        | stores new tables later =>
            exact Stores.stores ⟨rfl, rfl, rfl, later, hidle.concat .outside⟩ rfl new tables
      · exact Stores.fails (spares_self t n)

/-! ### Looking up -/

/-- A configuration is told by its name. -/
theorem tells_selectConfig (name : String) :
  Tells (.selectConfig name) fun t => .ok (.config (t.config? name))
  := by
  constructor
  · intro s session
    rfl
  · rintro ⟨⟩
  · rfl

/-- What a session may be left as in which was only told what is seen there, if all that is seen
can be told. -/
theorem returned_behind {kind : StatementKind} {answer : Tables → Answer}
    {result : Except SqlError Answer}
    (h : (∃ e, result = .error e) ∧ (∃ f ∈ n.server.faults, f.kind = kind) ∨
      result = told n.server n.next fun tables => .ok (answer tables)) :
  Returned t n.server (· ∈ n.idle) (behind n.server n.next result)
  := by
  obtain ⟨⟨e, rfl⟩, f, hf, -⟩ | rfl := h
  · exact .behindFailure n.next_mem (List.ne_nil_of_mem hf) n.server
  · rw [told]
    split
    · rename_i haborted
      rw [behind, Server.pooled_behindFailure_of_aborted haborted]
      exact .of_found n.next_mem
    · exact .of_found n.next_mem

/-- A statement that only tells what is seen spares a node, if all that is seen can be told. -/
theorem Tells.spares {statement : Statement} {answer : Tables → Answer}
    (ht : Tells statement fun tables => .ok (answer tables)) (n : Node) :
  Spares .live n (Node.query statement n).2
  := by
  cases ho : n.isOpen with
  | false =>
      rw [query_of_closed ho]
      apply spares_self
  | true =>
      obtain ⟨result, server, gaveUp, hq, tables, later, hresult⟩ := ht.query ho
      rw [hq]
      refine ⟨⟨rfl, rfl, rfl, later, ?_⟩, rfl, tables⟩
      apply Leaves.concat (leaves_of_subset fun _ => List.mem_of_mem_tail)
      apply returned_behind hresult

/-- What comes of looking a configuration up; nothing is changed. -/
inductive Finds (name : String) (n : Node) :
    Except StoreFailure (Option ServerConfig) × Node → Prop
  /-- It is not found, or it fails. -/
  | nothing {result : Except StoreFailure (Option ServerConfig)} {m : Node}
    (quiet : ∀ c, result ≠ .ok (some c)) (spares : Spares .live n m) : Finds name n (result, m)
  /-- It is read from a row that the session sees that is used next. -/
  | found {c : ServerConfig} {row : ConfigRow} {m : Node}
    (seen : (n.server.view n.next.session).config? name = some row)
    (read : row.toConfig? = some c) (spares : Spares .live n m) : Finds name n (.ok (some c), m)

/-- Looking a configuration up does one of these. -/
theorem finds_lookUp (name : String) (n : Node) :
  Finds name n (lookUp name n)
  := by
  cases ho : n.isOpen with
  | false =>
      simp only [lookUp, bind_apply, query_of_closed ho]
      exact Finds.nothing (by rintro c ⟨⟩) (spares_self .live n)
  | true =>
      obtain ⟨result, server, gaveUp, hq, -, -, hresult⟩ := (tells_selectConfig name).query ho
      have hspares := (tells_selectConfig name).spares n
      rw [hq] at hspares
      simp only [lookUp, bind_apply, hq]
      cases result with
      | error e => exact Finds.nothing (by rintro c ⟨⟩) hspares
      | ok answer =>
          obtain ⟨⟨e, ⟨⟩⟩, -⟩ | htold := hresult
          rw [told] at htold
          split at htold
          · cases htold
          · cases htold
            simp only [Except.mapError]
            cases hrow : (n.server.view n.next.session).config? name with
            | none => exact Finds.nothing (by rintro c ⟨⟩) hspares
            | some row =>
                dsimp only
                cases hread : row.toConfig? with
                | none => exact Finds.nothing (by rintro c ⟨⟩) hspares
                | some c => exact Finds.found hrow hread hspares

end Node

end ApiIntake.Database
