import ApiIntake.Import.Local
import ApiIntake.Proofs.Database.Rest
import ApiIntake.Proofs.Store.Catalog
import ApiIntake.Proofs.Tool.JsonForm

/-!
# The database and the catalog

A node on a database and a single process with a catalog are asked the same: to create
configurations, to look one up and to list them (`StoreCall`).  They answer alike, except
that a configuration whose JSON form nests too deeply is stored in the database and cannot
be read from there again (`replies_of_node`).
-/

namespace ApiIntake.Database

open ApiIntake.Feed (Broadcast)
open ApiIntake.Import (Local Workbench)
open ApiIntake.Store (StoreFailure Catalog refusal?)

/-! ### The tables of a catalog -/

/-- The tables with the configurations of a catalog and no events. -/
def tablesOf (k : Catalog) : Tables := ⟨k.configs.map ConfigRow.ofConfig, []⟩

section

variable {k : Catalog} {c : ServerConfig}

/-- The rows are found under the names of their configurations. -/
theorem config?_tablesOf (k : Catalog) (name : String) :
  (tablesOf k).config? name = (k.get? name).map ConfigRow.ofConfig
  := by
  rw [Tables.config?, tablesOf, List.find?_map]
  rfl

/-- The rows have the order of their configurations. -/
theorem sortedConfigs_tablesOf (k : Catalog) :
  (tablesOf k).sortedConfigs = k.toList.map ConfigRow.ofConfig
  := by
  rw [Tables.sortedConfigs, tablesOf, Catalog.toList]
  symm
  apply List.map_mergeSort
  intro a _ b _
  rfl

/-- The row of a configuration that a store takes is refused if its name is taken. -/
theorem refusal?_ofConfig (tables : Tables) (hr : refusal? c = none) :
  tables.refusal? (.config (.ofConfig c)) =
    if (tables.config? c.name).isSome then some .nameTaken else none
  := by
  have hn : ¬ (ConfigRow.ofConfig c).name.toList.all (· = ' ') = true := by
    intro hs
    have hb : Text.isBlank c.name = true := by
      apply List.all_eq_true.mpr
      intro char hc
      rw [of_decide_eq_true (List.all_eq_true.mp hs char hc)]
      decide
    rw [refusal?, if_pos hb] at hr
    cases hr
  rw [Tables.refusal?, if_neg hn]
  rfl

/-- A row is refused if its name is taken. -/
theorem refusal?_tablesOf (hr : refusal? c = none) :
  (tablesOf k).refusal? (.config (.ofConfig c)) =
    if (k.get? c.name).isSome then some .nameTaken else none
  := by
  rw [refusal?_ofConfig (tablesOf k) hr, config?_tablesOf, Option.isSome_map]

/-- A row under a new name is that of a configuration more. -/
theorem putConfig_tablesOf (h : k.get? c.name = none) :
  (tablesOf k).putConfig (.ofConfig c) = tablesOf ⟨k.configs ++ [c]⟩
  := by
  have hf : (tablesOf k).configs.filter (fun r => r.name ≠ (ConfigRow.ofConfig c).name) =
      (tablesOf k).configs := by
    apply List.filter_eq_self.mpr
    intro row hrow
    obtain ⟨d, hd, rfl⟩ := List.mem_map.mp hrow
    have hne : d.name ≠ c.name := by
      simpa using List.find?_eq_none.mp h d hd
    apply decide_eq_true hne
  rw [Tables.putConfig, hf, tablesOf, tablesOf, List.map_append]
  rfl

/-- A row gives its configuration if that does not nest too deeply. -/
theorem toConfig?_ofConfig (c : ServerConfig) :
  (ConfigRow.ofConfig c).toConfig? =
    if c.toJson.depth ≤ Json.depthLimit then some c else none
  := by
  rw [ConfigRow.toConfig?, ConfigRow.ofConfig, ServerConfig.ofJson?_toJson]

end

/-! ### Calls on a node -/

namespace Node

variable {n : Node} {tables : Tables} {k l : Catalog} {c : ServerConfig} {cancelled : Bool}

/-- A node looks at itself. -/
theorem answers_get (h : AtRest n tables) :
  Answers get n n tables
  := by
  exact ⟨rfl, h⟩

/-- A call whose caller has given up before creates nothing. -/
theorem answers_create_of_cancelled (h : AtRest n tables) (c : ServerConfig) :
  Answers (create ⟨true, none⟩ c) n (.error .cancelled) tables
  := by
  rw [create]
  apply (answers_get h).bind
  intro n h
  apply answers_pure h

/-- A configuration that no store takes is not created. -/
theorem answers_create_of_refusal {e : StoreFailure} (h : AtRest n tables)
    (hr : refusal? c = some e) :
  Answers (create ⟨false, none⟩ c) n (.error e) tables
  := by
  rw [create]
  apply (answers_get h).bind
  intro n' h'
  rw [isCancelled, h.gaveUp, hr]
  apply answers_pure h'

/-- A configuration that stores take is created as its row is inserted in a new transaction. -/
theorem answers_create {result : Except StoreFailure Unit} {tables' : Tables}
    (h : AtRest n tables) (hr : refusal? c = none)
    (hinsert : ∀ n, AtRest n tables →
      Answers (insertRow ⟨false, none⟩ c (.begun tables)) n result tables') :
  Answers (create ⟨false, none⟩ c) n result tables'
  := by
  rw [create]
  apply (answers_get h).bind
  intro n' h'
  -- the check looks at the node as it was, not at the one that it leaves
  rw [isCancelled, h.gaveUp, hr]
  apply (answers_acquire h').bind
  intro n h
  apply (answers_send h rfl (Server.performs_begin tables)).bind
  apply hinsert

/-- A row that is refused is not inserted. -/
theorem answers_insertRow_of_refused {e : SqlError} (h : AtRest n tables)
    (hrow : tables.refusal? (.config (.ofConfig c)) = some e) :
  Answers (insertRow ⟨false, none⟩ c (.begun tables)) n
    (.error (storeFailureOf c.name (.database e))) tables
  := by
  have ht : (⟨false, none⟩ : Token).cancelAt = none := rfl
  obtain ⟨session, hsend⟩ := answers_send_of_refuses h ht (Server.refuses_insertConfig hrow)
  apply hsend.bind
  intro n h
  apply (answers_release h).bind
  intro n h
  apply answers_pure h

/-- Any other row is inserted and committed. -/
theorem answers_insertRow (h : AtRest n tables)
    (hrow : tables.refusal? (.config (.ofConfig c)) = none) :
  Answers (insertRow ⟨false, none⟩ c (.begun tables)) n (.ok ())
    (tables.putConfig (.ofConfig c))
  := by
  have hcommit := Server.performs_commit (x := ⟨tables, [.config (.ofConfig c)], [], false⟩) rfl
    (Tables.applyAll_singleton hrow)
  apply (answers_send h rfl (Server.performs_insertConfig hrow)).bind
  intro n h
  apply (answers_send h rfl hcommit).bind
  intro n h
  apply (answers_release h).bind
  intro n h
  apply answers_pure h

/-- What a catalog refuses, a node refuses with the same error. -/
theorem answers_create_of_error {e : StoreFailure} (h : AtRest n (tablesOf k))
    (he : k.create cancelled c = .error e) :
  Answers (create ⟨cancelled, none⟩ c) n (.error e) (tablesOf k)
  := by
  cases cancelled with
  | true =>
      cases he
      apply answers_create_of_cancelled h
  | false =>
      cases hr : refusal? c with
      | some e' =>
          rw [Catalog.create, if_neg (by decide), hr] at he
          cases he
          apply answers_create_of_refusal h hr
      | none =>
          have hrow := refusal?_tablesOf hr (k := k)
          cases hg : k.get? c.name with
          | none =>
              have hok := Catalog.create_eq_ok_iff.mpr ⟨rfl, hr, hg, rfl⟩
              rw [he] at hok
              cases hok
          | some d =>
              rw [Catalog.create_of_taken hr hg] at he
              cases he
              rw [hg] at hrow
              apply answers_create h hr fun n h => answers_insertRow_of_refused h hrow

/-- What a catalog takes, a node takes. -/
theorem answers_create_of_ok (h : AtRest n (tablesOf k)) (hl : k.create cancelled c = .ok l) :
  Answers (create ⟨cancelled, none⟩ c) n (.ok ()) (tablesOf l)
  := by
  obtain ⟨rfl, hr, hg, rfl⟩ := Catalog.create_eq_ok_iff.mp hl
  have hrow := refusal?_tablesOf hr (k := k)
  rw [hg] at hrow
  rw [← putConfig_tablesOf hg]
  apply answers_create h hr fun n h => answers_insertRow h hrow

/-- A configuration is looked up in the database as in the catalog, and then read from its
row. -/
theorem answers_lookUp (h : AtRest n (tablesOf k)) (name : String) :
  Answers (lookUp name) n
    (match k.get? name with
      | some c =>
        if c.toJson.depth ≤ Json.depthLimit then .ok (some c)
        else .error (.unavailable ("decode config '" ++ name ++ "': " ++ undecodable))
      | none => .ok none)
    (tablesOf k)
  := by
  rw [lookUp]
  apply (answers_query h (Server.performs_selectConfig _ name)).bind
  intro n h
  rw [config?_tablesOf]
  cases k.get? name with
  | none => apply answers_pure h
  | some c =>
      change Answers (match (ConfigRow.ofConfig c).toConfig? with | some c => _ | none => _) n _ _
      rw [toConfig?_ofConfig]
      by_cases hc : c.toJson.depth ≤ Json.depthLimit
      · simp only [if_pos hc]
        apply answers_pure h
      · simp only [if_neg hc]
        apply answers_pure h

/-- The configurations are listed as in the catalog, those that can be read from their
rows. -/
theorem answers_listAll (h : AtRest n (tablesOf k)) :
  Answers listAll n (.ok (k.toList.filter fun c => c.toJson.depth ≤ Json.depthLimit)) (tablesOf k)
  := by
  have hread : (k.toList.map ConfigRow.ofConfig).filterMap ConfigRow.toConfig? =
      k.toList.filter fun c => c.toJson.depth ≤ Json.depthLimit := by
    rw [List.filterMap_map, ← List.filterMap_eq_filter]
    apply List.filterMap_congr
    intro c _
    rw [Function.comp_apply, toConfig?_ofConfig]
    simp [Option.guard]
  rw [listAll]
  apply (answers_query h (Server.performs_selectConfigs _)).bind
  intro n h
  rw [sortedConfigs_tablesOf, ← hread]
  apply answers_pure h

end Node

/-! ### Stores -/

/-- A call on the configurations of a store. -/
inductive StoreCall where
  /-- Creates a configuration, for a caller that may have given up before. -/
  | create (cancelled : Bool) (c : ServerConfig)
  /-- Looks a configuration up. -/
  | get (name : String)
  /-- Lists all configurations. -/
  | list

/-- What a store replies. -/
inductive StoreReply where
  | created (result : Except StoreFailure Unit)
  | found (result : Except StoreFailure (Option ServerConfig))
  | listed (result : Except StoreFailure (List ServerConfig))

/-- A reply as it is where configurations are read from texts: one that nests too deeply is
not read. -/
def StoreReply.asRead : StoreReply → StoreReply
  | .found (.ok (some c)) =>
    if c.toJson.depth ≤ Json.depthLimit then .found (.ok (some c))
    else .found (.error (.unavailable ("decode config '" ++ c.name ++ "': " ++ undecodable)))
  | .listed (.ok cs) => .listed (.ok (cs.filter fun c => c.toJson.depth ≤ Json.depthLimit))
  | reply => reply

/-- Makes a call on the store of a workbench. -/
def serve {τ σ : Type} (w : Workbench τ σ) (token : Bool → τ) : StoreCall → StateM σ StoreReply
  | .create cancelled c => do return .created (← w.create (token cancelled) c)
  | .get name => do return .found (← w.get name)
  | .list => do return .listed (← w.list)

/-- Makes a call on a node, for a caller that gives up before it or not at all. -/
def serveNode (settings : Settings) (call : StoreCall) : StateM Node StoreReply := do
  Node.beginCall
  serve (Node.bench settings) (fun cancelled => ⟨cancelled, none⟩) call

/-- Makes a call on a single process. -/
def serveLocal (settings : Settings) : StoreCall → StateM Local StoreReply :=
  serve (Local.bench settings) id

section

variable {settings : Settings} {n : Node} {s : Local}

/-- A node that holds the configurations of a single process replies to a call as that does,
as far as configurations can be read, and both hold the same configurations behind it. -/
theorem answers_serveNode (settings : Settings) (h : n.AtRest (tablesOf s.catalog))
    (call : StoreCall) :
  Node.Answers (serveNode settings call) n (serveLocal settings call s).1.asRead
    (tablesOf (serveLocal settings call s).2.catalog)
  := by
  rw [serveNode]
  apply (Node.answers_beginCall h).bind
  intro n h
  cases call with
  | create cancelled c =>
      change Node.Answers _ n (StoreReply.created (Local.create cancelled c s).1)
        (tablesOf (Local.create cancelled c s).2.catalog)
      rw [Local.create]
      cases hc : s.catalog.create cancelled c with
      | error e =>
          apply (Node.answers_create_of_error h hc).bind
          intro n h
          apply Node.answers_pure h
      | ok l =>
          apply (Node.answers_create_of_ok h hc).bind
          intro n h
          apply Node.answers_pure h
  | get name =>
      change Node.Answers _ n (StoreReply.found (.ok (s.catalog.get? name))).asRead
        (tablesOf s.catalog)
      apply (Node.answers_lookUp h name).bind
      intro n h
      cases hg : s.catalog.get? name with
      | none => apply Node.answers_pure h
      | some c =>
          rw [StoreReply.asRead, ← Catalog.name_of_get? hg, ← apply_ite StoreReply.found]
          apply Node.answers_pure h
  | list =>
      apply (Node.answers_listAll h).bind
      intro n h
      apply Node.answers_pure h

/-- A reply that shows only configurations that do not nest too deeply is as it is read. -/
theorem asRead_serveLocal (h : ∀ c ∈ s.catalog.configs, c.toJson.depth ≤ Json.depthLimit)
    (call : StoreCall) :
  (serveLocal settings call s).1.asRead = (serveLocal settings call s).1
  := by
  cases call with
  | create cancelled c => rfl
  | get name =>
      change (StoreReply.found (.ok (s.catalog.get? name))).asRead =
        .found (.ok (s.catalog.get? name))
      cases hg : s.catalog.get? name with
      | none => rfl
      | some c =>
          have hc := h c (List.mem_of_find?_eq_some hg)
          rw [StoreReply.asRead, if_pos hc]
  | list =>
      change StoreReply.listed (.ok (s.catalog.toList.filter _)) = .listed (.ok s.catalog.toList)
      rw [List.filter_eq_self.mpr]
      intro c hc
      apply decide_eq_true (h c (List.mem_mergeSort.mp hc))

/-- If all configurations of a single process nest as deeply as may be, and one that is to
be created does so as well, all of them do so behind the call. -/
theorem depth_serveLocal (h : ∀ c ∈ s.catalog.configs, c.toJson.depth ≤ Json.depthLimit)
    {call : StoreCall}
    (hcall : ∀ cancelled c, call = .create cancelled c → c.toJson.depth ≤ Json.depthLimit) :
  ∀ c ∈ (serveLocal settings call s).2.catalog.configs, c.toJson.depth ≤ Json.depthLimit
  := by
  cases call with
  | create cancelled c =>
      change ∀ d ∈ (Local.create cancelled c s).2.catalog.configs, _
      rw [Local.create]
      cases hc : s.catalog.create cancelled c with
      | error e => apply h
      | ok l =>
          obtain ⟨-, -, -, rfl⟩ := Catalog.create_eq_ok_iff.mp hc
          intro d hd
          obtain hd | hd := List.mem_append.mp hd
          · apply h d hd
          · rw [List.mem_singleton.mp hd]
            apply hcall cancelled c rfl
  | get name => apply h
  | list => apply h

variable {calls : List StoreCall}

/-- A node that holds the configurations of a single process replies to any calls as that
does, as far as configurations can be read. -/
theorem replies_eq_asRead (h : n.AtRest (tablesOf s.catalog)) :
  (history (serveNode settings) n calls).map (·.reply) =
    ((history (serveLocal settings) s calls).map (·.reply)).map .asRead
  := by
  apply replies_of_related (R := fun n s => n.AtRest (tablesOf s.catalog)) _ h
  intro call _ n s h
  have ha := answers_serveNode settings h call
  exact ⟨ha.answer, ha.atRest⟩

/-- A node that holds the configurations of a single process replies to any calls as that
does, if no configuration nests too deeply. -/
theorem replies_eq (h : n.AtRest (tablesOf s.catalog))
    (hs : ∀ c ∈ s.catalog.configs, c.toJson.depth ≤ Json.depthLimit)
    (hcalls : ∀ cancelled c, .create cancelled c ∈ calls → c.toJson.depth ≤ Json.depthLimit) :
  (history (serveNode settings) n calls).map (·.reply) =
    (history (serveLocal settings) s calls).map (·.reply)
  := by
  rw [← List.map_id ((history (serveLocal settings) s calls).map (·.reply))]
  apply replies_of_related (R := fun n s => n.AtRest (tablesOf s.catalog) ∧
    ∀ c ∈ s.catalog.configs, c.toJson.depth ≤ Json.depthLimit) _ ⟨h, hs⟩
  rintro call hcall n s ⟨h, hs⟩
  have ha := answers_serveNode settings h call
  rw [asRead_serveLocal hs] at ha
  use ha.answer, ha.atRest
  apply depth_serveLocal hs
  rintro cancelled c rfl
  apply hcalls cancelled c hcall

/-- A node that has connected to an empty database, with a pool of so many sessions. -/
def newNode (regime : Regime) (poolSize : Nat) (id : String) (feed : Broadcast) : Node :=
  (Node.connect (.ofServer (.empty regime) id feed poolSize)).2

/-- A node connects to an empty database, and is at rest then. -/
theorem answers_connect_empty (regime : Regime) (poolSize : Nat) (id : String)
    (feed : Broadcast) :
  Node.Answers Node.connect (.ofServer (.empty regime) id feed poolSize) (.ok ())
    (tablesOf .empty)
  := by
  apply Node.answers_connect rfl rfl

/-- On an empty database, however it runs transactions, a node replies to any calls as a single
process does, as far as configurations can be read from texts; and exactly as that does if no
configuration that is to be created nests too deeply for that. -/
theorem replies_of_node (settings : Settings) (regime : Regime) (poolSize : Nat) (id : String)
    (feed : Broadcast) (capacity : Nat) (calls : List StoreCall) :
  (Node.connect (.ofServer (.empty regime) id feed poolSize)).1 = .ok () ∧
    (history (serveNode settings) (newNode regime poolSize id feed) calls).map (·.reply) =
      ((history (serveLocal settings) (.ofCapacity capacity) calls).map (·.reply)).map .asRead ∧
    ((∀ cancelled c, .create cancelled c ∈ calls → c.toJson.depth ≤ Json.depthLimit) →
      (history (serveNode settings) (newNode regime poolSize id feed) calls).map (·.reply) =
        (history (serveLocal settings) (.ofCapacity capacity) calls).map (·.reply))
  := by
  have h := answers_connect_empty regime poolSize id feed
  constructor
  · apply h.answer
  constructor
  · apply replies_eq_asRead h.atRest
  · intro hcalls
    apply replies_eq h.atRest _ hcalls
    rintro c ⟨⟩

end

/-- The calls that create a configuration, look it up and list it. -/
def callsOn (c : ServerConfig) : List StoreCall := [.create false c, .get c.name, .list]

/-- A single process creates a configuration that stores take, looks it up and lists it. -/
theorem replies_callsOn (settings : Settings) (capacity : Nat) {c : ServerConfig}
    (hr : refusal? c = none) :
  (history (serveLocal settings) (.ofCapacity capacity) (callsOn c)).map (·.reply) =
    [.created (.ok ()), .found (.ok (some c)), .listed (.ok [c])]
  := by
  have hc : Catalog.empty.create false c = .ok ⟨[c]⟩ :=
    Catalog.create_eq_ok_iff.mpr ⟨rfl, hr, rfl, rfl⟩
  have hs : Local.create false c (.ofCapacity capacity) =
      (.ok (), { Local.ofCapacity capacity with catalog := ⟨[c]⟩ }) := by
    rw [Local.create, Local.ofCapacity, hc]
  have hg : (Catalog.mk [c]).get? c.name = some c := by
    simp [Catalog.get?]
  have hl : (Catalog.mk [c]).toList = [c] := by
    simp [Catalog.toList]
  change [StoreReply.created (Local.create false c (.ofCapacity capacity)).1,
    .found (.ok ((Local.create false c (.ofCapacity capacity)).2.catalog.get? c.name)),
    .listed (.ok (Local.create false c (.ofCapacity capacity)).2.catalog.toList)] = _
  rw [hs, hg, hl]

/-- A configuration without tools is created, looked up and listed by a node as well. -/
theorem replies_bareConfig :
  (history (serveNode .standard) (newNode .reading 5 "a" (.ofCapacity 1))
      (callsOn bareConfig)).map (·.reply) =
    [.created (.ok ()), .found (.ok (some bareConfig)), .listed (.ok [bareConfig])]
  := by
  have hcalls : ∀ cancelled c, .create cancelled c ∈ callsOn bareConfig →
      c.toJson.depth ≤ Json.depthLimit := by
    intro cancelled c hc
    simp only [callsOn, List.mem_cons, StoreCall.create.injEq, List.not_mem_nil, reduceCtorEq,
      or_false] at hc
    rw [hc.2]
    decide
  rw [(replies_of_node .standard .reading 5 "a" (.ofCapacity 1) 1
    (callsOn bareConfig)).2.2 hcalls]
  apply replies_callsOn
  decide

/-- Arrays inside one another. -/
def nested : Nat → Json
  | 0 => .null
  | n + 1 => .arr [nested n]

/-- A configuration that nests too deeply to be read from a text. -/
def deepConfig : ServerConfig := { bareConfig with metadata := [("deep", nested 126)] }

/-- The deep configuration is created by both, and then a single process looks it up and lists
it, but a node cannot read it and leaves it out. -/
theorem replies_deepConfig :
  (history (serveNode .standard) (newNode .reading 5 "a" (.ofCapacity 1))
        (callsOn deepConfig)).map (·.reply) =
      [.created (.ok ()),
        .found (.error (.unavailable ("decode config 'pets_1': " ++ undecodable))),
        .listed (.ok [])] ∧
    (history (serveLocal .standard) (.ofCapacity 1) (callsOn deepConfig)).map (·.reply) =
      [.created (.ok ()), .found (.ok (some deepConfig)), .listed (.ok [deepConfig])]
  := by
  have hr : refusal? deepConfig = none := by
    decide
  have hd : ¬ deepConfig.toJson.depth ≤ Json.depthLimit := by
    decide +kernel
  have hn : (newNode .reading 5 "a" (.ofCapacity 1)).AtRest
      (tablesOf (Local.ofCapacity 1).catalog) :=
    (answers_connect_empty .reading 5 "a" (.ofCapacity 1)).atRest
  constructor
  · rw [replies_eq_asRead hn, replies_callsOn .standard 1 hr]
    simp [StoreReply.asRead, hd]
    rfl
  · apply replies_callsOn .standard 1 hr

end ApiIntake.Database
