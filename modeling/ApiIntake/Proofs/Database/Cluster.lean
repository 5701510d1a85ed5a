import ApiIntake.Proofs.Database.Dispatch
import ApiIntake.Proofs.Database.Replay
import ApiIntake.Proofs.Run
import Mathlib.Data.List.Basic

/-!
# Nodes that share a database

In a cluster, any number of nodes work on one database.  Their announcements go on statement
by statement, in any order, and whatever is sent reaches every node and is handed to its
listeners at any later time.

`Cluster.act` lets one thing happen; `Cluster.Change` lists what that can be as far as it can
be seen from outside (`Cluster.change_act`).
-/

namespace ApiIntake.Database

open ApiIntake.Feed (AnnounceFailure Update Broadcast)

/-! ### What a node does in a cluster -/

namespace Node

/-- Publishes an announcement on the feed of the node as soon as it is committed. -/
def publishCommitted : Stage → Node → Node
  | .ended (.ok u), n => { n with feed := (n.feed.publish u).2 }
  | _, n => n

/-- Goes on with an announcement. -/
def proceed (t : Token) (c : ServerConfig) (stage : Stage) : StateM Node Stage := do
  let stage ← advance (← get).id t c stage
  modify (publishCommitted stage)
  return stage

/-- Hands a notification to the listeners. -/
def hear (payload : String) : StateM Node Unit := do
  modify fun n => { n with arrived := [payload] }
  settle

/-- Notifications reach a node. -/
def receive (payloads : List String) (n : Node) : Node :=
  { n with arrived := n.arrived ++ payloads }

/-- A node that listens, with a pool of so many sessions. -/
def listening (poolSize : Nat) (id : String) (feed : Broadcast) : Node :=
  (listen (ofServer .empty id feed poolSize)).2

end Node

/-! ### Clusters -/

/-- An announcement that is on its way. -/
structure Sending where
  /-- The place of the node. -/
  place : Nat
  /-- Whether and when its caller gives up. -/
  token : Token
  /-- What is announced. -/
  config : ServerConfig
  /-- How far it has come. -/
  stage : Stage

/-- Nodes that share a database. -/
structure Cluster where
  /-- The database; what the nodes hold in its place is passed over. -/
  server : Server
  /-- The nodes. -/
  nodes : List Node
  /-- The announcements that are on their way. -/
  sendings : List Sending

namespace Cluster

/-- What may happen in a cluster. -/
inductive Act where
  /-- A node is called to announce a configuration. -/
  | call (place : Nat) (token : Token) (config : ServerConfig)
  /-- One of the announcements goes on. -/
  | proceed (i : Nat)
  /-- Somebody else sends a notification. -/
  | inject (payload : String)
  /-- One of the notifications that reached a node is handed to its listeners. -/
  | deliver (place i : Nat)
  /-- A node is asked for recorded events. -/
  | replay (place after : Nat) (limit : Int)
  /-- A statement will fail. -/
  | fail (fault : Fault)

/-- What is replied. -/
inductive Reply where
  /-- Nothing is over. -/
  | done
  /-- An announcement is over. -/
  | ended (result : Except AnnounceFailure Update)
  /-- Recorded events are given. -/
  | replayed (result : Except EventError (List Update))

/-- Runs a program of a node on the shared database; what it sends reaches all nodes. -/
def runAt {α : Type} (place : Nat) (n : Node) (m : StateM Node α) (k : Cluster) : α × Cluster :=
  let r := m { n with server := k.server, arrived := [] }
  (r.1,
    { k with
      server := r.2.server
      nodes :=
        (k.nodes.set place { r.2 with arrived := n.arrived }).map (Node.receive r.2.arrived) })

/-- An announcement that is on its way, and its node. -/
def sending? (k : Cluster) (i : Nat) : Option (Sending × Node) := do
  let s ← k.sendings[i]?
  let n ← k.nodes[s.place]?
  some (s, n)

/-- A notification that reached a node, and the node without it. -/
def arrived? (k : Cluster) (place i : Nat) : Option (String × Node) := do
  let n ← k.nodes[place]?
  let payload ← n.arrived[i]?
  some (payload, { n with arrived := n.arrived.eraseIdx i })

/-- Lets something happen. -/
def act : Act → StateM Cluster Reply
  | .call place t c => fun k =>
    match k.nodes[place]? with
    | none => (.done, k)
    | some n =>
      match runAt place n (do Node.beginCall; Node.startSending t) k with
      | (.ended result, k) => (.ended result, k)
      | (stage, k) => (.done, { k with sendings := k.sendings ++ [⟨place, t, c, stage⟩] })
  | .proceed i => fun k =>
    match k.sending? i with
    | none => (.done, k)
    | some (s, n) =>
      match runAt s.place n (Node.proceed s.token s.config s.stage) k with
      | (.ended result, k) => (.ended result, { k with sendings := k.sendings.eraseIdx i })
      | (stage, k) => (.done, { k with sendings := k.sendings.set i { s with stage } })
  | .inject payload => fun k =>
    (.done, { k with nodes := k.nodes.map (Node.receive [payload]) })
  | .deliver place i => fun k =>
    match k.arrived? place i with
    | none => (.done, k)
    | some (payload, n) => (.done, (runAt place n (Node.hear payload) k).2)
  | .replay place after limit => fun k =>
    match k.nodes[place]? with
    | none => (.done, k)
    | some n =>
      let r := runAt place n (Node.replay after limit) k
      (.replayed r.1, r.2)
  | .fail fault => fun k =>
    (.done, { k with server := { k.server with faults := k.server.faults ++ [fault] } })

/-- The announcement that was committed. -/
def Reply.committed? : Reply → Option Update
  | .ended (.ok u) => some u
  | _ => none

/-- The announcements that were committed in a run, in this order. -/
def committed {α σ : Type} (turns : List (Turn α Reply σ)) : List Update :=
  turns.filterMap fun t => t.reply.committed?

/-- One call more adds what it committed. -/
theorem committed_concat {α σ : Type} (turns : List (Turn α Reply σ)) (t : Turn α Reply σ) :
  committed (turns ++ [t]) = committed turns ++ t.reply.committed?.toList
  := by
  rw [committed, List.filterMap_append, committed, List.filterMap_cons, List.filterMap_nil]
  cases t.reply.committed? <;> rfl

/-- Nodes that listen, on a database. -/
def ofMembers (server : Server) (poolSize : Nat) (members : List (String × Broadcast)) :
    Cluster where
  server := server
  nodes := members.map fun m => Node.listening poolSize m.1 m.2
  sendings := []

/-! ### What can be seen from outside -/

end Cluster

/-- What can be seen of a node from outside. -/
structure Desk where
  /-- Its name. -/
  id : String
  /-- How many listeners relay to its feed. -/
  listeners : Nat
  /-- Its feed. -/
  feed : Broadcast
  /-- The notifications that have reached it and were not handed to its listeners. -/
  arrived : List String

/-- What can be seen of a node. -/
def Node.desk (n : Node) : Desk := ⟨n.id, n.listeners, n.feed, n.arrived⟩

/-- Reading events back cannot be seen. -/
theorem Node.Reads.desk {n : Node} {after : Nat} {limit : Int}
    {r : Except EventError (List Update) × Node} (h : Reads n after limit r) :
  r.2.desk = n.desk
  := by
  cases h with
  | refused => rfl
  | failed => rfl
  | told => rfl

namespace Desk

/-- Notifications reach it. -/
def receive (payloads : List String) (d : Desk) : Desk :=
  { d with arrived := d.arrived ++ payloads }

/-- An announcement is published on its feed. -/
def publish (u : Update) (d : Desk) : Desk := { d with feed := (d.feed.publish u).2 }

/-- One of the notifications is handed to its listeners. -/
def hear (i : Nat) (payload : String) (d : Desk) : Desk :=
  { d with
    arrived := d.arrived.eraseIdx i
    feed := (List.replicate d.listeners payload).foldl (relay d.id) d.feed }

end Desk

namespace Cluster

/-- What can be seen of the nodes. -/
def desks (k : Cluster) : List Desk := k.nodes.map Node.desk

/-- The announcements that are on their way are sound, and so none of them is over. -/
def Sound (k : Cluster) : Prop :=
  ∀ s ∈ k.sendings, (∀ r, s.stage ≠ .ended r) ∧
    ∃ d, k.desks[s.place]? = some d ∧ s.stage.Sound d.id s.config

/-- What one thing that happens can change, as far as it can be seen from outside. -/
inductive Change (k : Cluster) : Act → Reply × Cluster → Prop
  /-- Nothing. -/
  | nothing {a : Act} {reply : Reply} {k' : Cluster} (quiet : reply.committed? = none)
    (tables : k'.server.tables = k.server.tables) (desks : k'.desks = k.desks) :
    Change k a (reply, k')
  /-- A notification reaches all nodes. -/
  | injected {payload : String} {k' : Cluster} (tables : k'.server.tables = k.server.tables)
    (desks : k'.desks = k.desks.map (Desk.receive [payload])) :
    Change k (.inject payload) (.done, k')
  /-- A notification is handed to the listeners of a node. -/
  | delivered {place i : Nat} {payload : String} {d : Desk} {k' : Cluster}
    (found : k.desks[place]? = some d) (arrived : d.arrived[i]? = some payload)
    (tables : k'.server.tables = k.server.tables)
    (desks : k'.desks = k.desks.set place (d.hear i payload)) :
    Change k (.deliver place i) (.done, k')
  /-- The event of an announcement is committed, a notification reaches all nodes, and the
  announcement is published on the feed of its node. -/
  | committed {i place : Nat} {u : Update} {d : Desk} {k' : Cluster}
    (found : k.desks[place]? = some d) (new : (u.eventId : Int) ∉ k.server.tables.numbers)
    (known : ∃ row ∈ k.server.tables.configs, row.name = u.name)
    (tables : k'.server.tables = k.server.tables.putEvent (rowOf u))
    (desks : k'.desks =
      (k.desks.set place (d.publish u)).map (Desk.receive [Dispatch.payload ⟨d.id, u⟩])) :
    Change k (.proceed i) (.ended (.ok u), k')

/-- Nothing is changed where nothing is done. -/
theorem Change.refl (k : Cluster) (a : Act) :
  Change k a (.done, k)
  := .nothing rfl rfl rfl

/-! ### Programs of nodes -/

section

variable {α : Type} {k k' : Cluster} {place i : Nat} {n : Node} {m : StateM Node α}

/-- The desk of a node is found in its place. -/
theorem desks_getElem? (h : k.nodes[place]? = some n) :
  k.desks[place]? = some n.desk
  := by
  rw [desks, List.getElem?_map, h]
  rfl

/-- A desk that is put in its own place changes nothing. -/
theorem set_desk (h : k.nodes[place]? = some n) :
  k.desks.set place n.desk = k.desks
  := by
  obtain ⟨hlt, hd⟩ := List.getElem?_eq_some_iff.mp (desks_getElem? h)
  rw [← hd, List.set_getElem_self]

/-- If nothing is sent, nothing arrives. -/
theorem map_receive_nil (ds : List Desk) :
  ds.map (Desk.receive []) = ds
  := by
  have h : Desk.receive [] = id := by
    funext d
    rw [Desk.receive, List.append_nil]
    rfl
  rw [h, List.map_id]

/-- What can be seen when a node was replaced and notifications reached all nodes. -/
theorem map_desk (nodes : List Node) (place : Nat) (n : Node) (payloads : List String) :
  ((nodes.set place n).map (Node.receive payloads)).map Node.desk =
    ((nodes.map Node.desk).set place n.desk).map (Desk.receive payloads)
  := by
  simp only [List.map_map, List.map_set]
  rfl

/-- What can be seen when a node was replaced by one that looks the same, and nothing was
sent. -/
theorem map_desk_of_same {n' : Node} (h : k.nodes[place]? = some n) (hdesk : n'.desk = n.desk) :
  ((k.nodes.set place n').map (Node.receive [])).map Node.desk = k.desks
  := by
  rw [map_desk, map_receive_nil, hdesk]
  apply set_desk h

/-- The announcement and its node are found. -/
theorem of_sending? {s : Sending} (h : k.sending? i = some (s, n)) :
  k.sendings[i]? = some s ∧ k.nodes[s.place]? = some n
  := by
  obtain ⟨s', hs, h⟩ := Option.bind_eq_some_iff.mp h
  obtain ⟨n', hn, h⟩ := Option.bind_eq_some_iff.mp h
  cases h
  exact ⟨hs, hn⟩

/-- The notification and its node are found. -/
theorem of_arrived? {payload : String} (h : k.arrived? place i = some (payload, n)) :
  ∃ n', k.nodes[place]? = some n' ∧ n'.arrived[i]? = some payload ∧
    n = { n' with arrived := n'.arrived.eraseIdx i }
  := by
  obtain ⟨n', hn, h⟩ := Option.bind_eq_some_iff.mp h
  obtain ⟨p, hp, h⟩ := Option.bind_eq_some_iff.mp h
  cases h
  exact ⟨n', hn, hp, rfl⟩

/-- What is replied when an announcement has come to a stage. -/
def Reply.ofStage : Stage → Reply
  | .ended result => .ended result
  | _ => .done

/-- The announcements that are on their way when one of them has come to a stage; it is taken
away when it is over. -/
def bring (sendings : List Sending) (i : Nat) (s : Sending) : Stage → List Sending
  | .ended _ => sendings.eraseIdx i
  | stage => sendings.set i { s with stage }

section

variable {sendings : List Sending} {s s' : Sending} {stage : Stage}

/-- Only what is committed is published. -/
theorem publishCommitted_of_ne (h : ∀ u, stage ≠ .ended (.ok u)) (n : Node) :
  Node.publishCommitted stage n = n
  := by
  rw [Node.publishCommitted.eq_def]
  split
  · apply absurd rfl (h _)
  · rfl

/-- Only what is committed is replied to be so. -/
theorem committed?_of_ne (h : ∀ u, stage ≠ .ended (.ok u)) :
  (Reply.ofStage stage).committed? = none
  := by
  rw [Reply.ofStage.eq_def]
  split
  · rename_i result
    cases result with
    | error e => rfl
    | ok u => apply absurd rfl (h u)
  · rfl

/-- An announcement that goes on stays in its place. -/
theorem bring_of_going (h : ∀ r, stage ≠ .ended r) :
  bring sendings i s stage = sendings.set i { s with stage }
  := by
  rw [bring.eq_def]
  split
  · apply absurd rfl (h _)
  · rfl

/-- Of the announcements that are on their way then, only the one that goes on is another. -/
theorem of_mem_bring (h : s' ∈ bring sendings i s stage) :
  s' ∈ sendings ∨ s' = { s with stage } ∧ ∀ r, stage ≠ .ended r
  := by
  obtain ⟨r, rfl⟩ | hgoing := stage.ended_or_going
  · left
    apply List.mem_of_mem_eraseIdx h
  · rw [bring_of_going hgoing] at h
    obtain h | h := List.mem_or_eq_of_mem_set h
    · left
      apply h
    · right
      exact ⟨h, hgoing⟩

end

/-- How an announcement goes on, that is on its way at a node: its stage and its node are what a
step makes of them. -/
theorem act_proceed (hk : k.Sound) (i : Nat) :
  act (.proceed i) k = (.done, k) ∨
    ∃ s n stage n', k.sendings[i]? = some s ∧ k.nodes[s.place]? = some n ∧
      s.stage.Sound n.id s.config ∧
      Node.Step n.id s.token s.config { n with server := k.server, arrived := [] } s.stage
        (stage, n') ∧
      act (.proceed i) k =
        (.ofStage stage,
          { server := n'.server
            nodes := (k.nodes.set s.place
              { Node.publishCommitted stage n' with arrived := n.arrived }).map
              (Node.receive n'.arrived)
            sendings := bring k.sendings i s stage })
  := by
  cases hs : k.sending? i with
  | none =>
      left
      simp only [act, hs]
  | some r =>
      right
      obtain ⟨s, n⟩ := r
      obtain ⟨hs', hn⟩ := of_sending? hs
      obtain ⟨hgoing, d, hd, hsound⟩ := hk s (List.mem_of_getElem? hs')
      rw [desks_getElem? hn] at hd
      cases hd
      have hstep : Node.Step n.id s.token s.config { n with server := k.server, arrived := [] }
          s.stage _ := Node.step_advance hsound.inTransaction hgoing
      rcases hr : Node.advance n.id s.token s.config s.stage
        { n with server := k.server, arrived := [] } with ⟨stage, n'⟩
      rw [hr] at hstep
      use s, n, stage, n', hs', hn, hsound, hstep
      simp only [act, hs, runAt, Node.proceed, bind_apply, get_apply, hr]
      cases stage with
      | ended result => cases result <;> rfl
      | taken => rfl
      | begun => rfl
      | recorded => rfl
      | notified => rfl

/-- How an announcement begins at a node: with a session, or it fails at once. -/
theorem act_call (k : Cluster) (place : Nat) (t : Token) (c : ServerConfig) :
  act (.call place t c) k = (.done, k) ∨
    ∃ n idle, k.nodes[place]? = some n ∧ (∀ p ∈ idle, p ∈ n.idle) ∧
      ∃ reply sendings,
        act (.call place t c) k =
          (reply,
            { k with
              nodes := (k.nodes.set place
                { n with server := k.server, idle, gaveUp := false }).map (Node.receive [])
              sendings }) ∧
        ((∃ e, reply = .ended (.error e) ∧ sendings = k.sendings) ∨
          ∃ p, (p ∈ n.idle ∨ p = .outside) ∧ reply = .done ∧
            sendings = k.sendings ++ [⟨place, t, c, .taken p⟩])
  := by
  cases hn : k.nodes[place]? with
  | none =>
      left
      simp only [act, hn]
  | some n =>
      right
      have hb : (do Node.beginCall; Node.startSending t)
          { n with server := k.server, arrived := [] } =
          Node.startSending t { n with server := k.server, gaveUp := false, arrived := [] } := rfl
      obtain ⟨idle, hidle, ⟨e, hs⟩ | ⟨p, hp, hs⟩⟩ :=
        Node.startSending_cases t { n with server := k.server, gaveUp := false, arrived := [] }
      · use n, idle, rfl, hidle, .ended (.error e), k.sendings
        constructor
        · simp only [act, hn, runAt, hb, hs]
        · left
          use e
      · use n, idle, rfl, hidle, .done, k.sendings ++ [⟨place, t, c, .taken p⟩]
        constructor
        · simp only [act, hn, runAt, hb, hs]
        · right
          use p

/-- A node hands a notification to its listeners and does nothing else. -/
theorem hear_eq (payload : String) (n : Node) :
  (Node.hear payload n).2 =
    { n with
      arrived := []
      feed := (List.replicate n.listeners payload).foldl (relay n.id) n.feed }
  := by
  change { n with
    arrived := []
    feed := ([payload].flatMap fun p => List.replicate n.listeners p).foldl
      (relay n.id) n.feed } = _
  rw [List.flatMap_singleton]

/-- How a notification is handed to the listeners of a node: it is taken away, and only the feed
changes. -/
theorem act_deliver (k : Cluster) (place i : Nat) :
  act (.deliver place i) k = (.done, k) ∨
    ∃ n payload, k.nodes[place]? = some n ∧ n.arrived[i]? = some payload ∧
      act (.deliver place i) k =
        (.done,
          { k with
            nodes := (k.nodes.set place
              { n with
                server := k.server
                arrived := n.arrived.eraseIdx i
                feed := (List.replicate n.listeners payload).foldl (relay n.id) n.feed }).map
              (Node.receive []) })
  := by
  cases h : k.arrived? place i with
  | none =>
      left
      simp only [act, h]
  | some r =>
      right
      obtain ⟨payload, n⟩ := r
      obtain ⟨n, hn, harrived, rfl⟩ := of_arrived? h
      use n, payload, hn, harrived
      simp only [act, h, runAt, hear_eq]

/-- How recorded events are read back at a node: what it is left as is what reading makes of
it. -/
theorem act_replay (k : Cluster) (place after : Nat) (limit : Int) :
  act (.replay place after limit) k = (.done, k) ∨
    ∃ n result n', k.nodes[place]? = some n ∧
      Node.Reads { n with server := k.server, arrived := [] } after limit (result, n') ∧
      act (.replay place after limit) k =
        (.replayed result,
          { k with
            server := n'.server
            nodes := (k.nodes.set place { n' with arrived := n.arrived }).map
              (Node.receive []) })
  := by
  cases hn : k.nodes[place]? with
  | none =>
      left
      simp only [act, hn]
  | some n =>
      right
      have hreads := Node.reads_replay { n with server := k.server, arrived := [] } after limit
      rcases hr : Node.replay after limit { n with server := k.server, arrived := [] } with
        ⟨result, n'⟩
      rw [hr] at hreads
      have hsent : n'.arrived = [] := congrArg Desk.arrived hreads.desk
      use n, result, n', rfl, hreads
      simp only [act, hn, runAt, hr, hsent]

/-! ### What the acts can change -/

/-- Calling a node changes nothing that could be seen. -/
theorem change_call (k : Cluster) (place : Nat) (t : Token) (c : ServerConfig) :
  Change k (.call place t c) (act (.call place t c) k)
  := by
  obtain h | ⟨n, idle, hn, -, reply, sendings, h, hreply⟩ := act_call k place t c
  · rw [h]
    apply Change.refl
  · rw [h]
    apply Change.nothing
    · obtain ⟨e, rfl, -⟩ | ⟨_, -, rfl, -⟩ := hreply
      · rfl
      · rfl
    · rfl
    · apply map_desk_of_same hn
      rfl

/-- An announcement that goes on is committed, or it changes nothing that could be seen. -/
theorem change_proceed (hk : k.Sound) (i : Nat) :
  Change k (.proceed i) (act (.proceed i) k)
  := by
  obtain h | ⟨s, n, stage, n', hs, hn, hsound, hstep, h⟩ := act_proceed hk i
  · rw [h]
    apply Change.refl
  · obtain ⟨hid, hfeed, hlisteners, -⟩ := hstep.frame
    rw [h]
    obtain ⟨ht, ha, hquiet⟩ | ⟨id, rfl, ht, ha, hnew, hknown⟩ := hstep.effect hsound
    · rw [publishCommitted_of_ne hquiet, ha]
      apply Change.nothing (committed?_of_ne hquiet) ht
      apply map_desk_of_same hn
      rw [Node.desk, hid, hfeed, hlisteners]
      rfl
    · apply Change.committed (desks_getElem? hn) hnew hknown ht
      rw [desks, map_desk, ha, Node.publishCommitted, Node.desk, hid, hfeed, hlisteners]
      rfl

/-- Only the node whose listeners are handed a notification is seen to change. -/
theorem change_deliver (k : Cluster) (place i : Nat) :
  Change k (.deliver place i) (act (.deliver place i) k)
  := by
  obtain h | ⟨n, payload, hn, harrived, h⟩ := act_deliver k place i
  · rw [h]
    apply Change.refl
  · rw [h]
    apply Change.delivered (desks_getElem? hn) harrived
    · rfl
    · rw [desks, map_desk, map_receive_nil]
      rfl

/-- Reading recorded events changes nothing that could be seen. -/
theorem change_replay (k : Cluster) (place after : Nat) (limit : Int) :
  Change k (.replay place after limit) (act (.replay place after limit) k)
  := by
  obtain h | ⟨n, result, n', hn, hreads, h⟩ := act_replay k place after limit
  · rw [h]
    apply Change.refl
  · rw [h]
    apply Change.nothing
    · rfl
    · apply hreads.server.1
    · apply map_desk_of_same hn
      exact congrArg (fun d : Desk => { d with arrived := n.arrived }) hreads.desk

/-- Whatever happens changes nothing else that could be seen. -/
theorem change_act (hk : k.Sound) (a : Act) :
  Change k a (act a k)
  := by
  cases a with
  | call place t c => apply change_call
  | proceed i => apply change_proceed hk
  | inject payload =>
      apply Change.injected
      · rfl
      · simp only [desks, List.map_map]
        rfl
  | deliver place i => apply change_deliver
  | replay place after limit => apply change_replay
  | fail fault =>
      apply Change.nothing
      · rfl
      · rfl
      · rfl

/-! ### Sound clusters -/

variable {a : Act} {reply : Reply} {r : Reply × Cluster}

/-- A desk that is replaced by one with the same name and listeners. -/
theorem exists_of_set {ds : List Desk} {d d₀ : Desk} (hp : ds[place]? = some d₀)
    (hid : d.id = d₀.id) (hl : d.listeners = d₀.listeners) (j : Nat) :
  ∀ e, ds[j]? = some e → ∃ e', (ds.set place d)[j]? = some e' ∧ e'.id = e.id ∧
    e'.listeners = e.listeners
  := by
  intro e he
  rw [List.getElem?_set]
  by_cases hj : place = j
  · have hlt := (List.getElem?_eq_some_iff.mp hp).1
    rw [hj] at hp hlt
    rw [if_pos hj, hj, if_pos hlt]
    rw [he] at hp
    cases hp
    exact ⟨d, rfl, hid, hl⟩
  · rw [if_neg hj]
    exact ⟨e, he, rfl, rfl⟩

/-- Nodes keep their places, their names and their listeners. -/
theorem Change.keeps (h : Change k a (reply, k')) {d : Desk} (hd : k.desks[i]? = some d) :
  ∃ d', k'.desks[i]? = some d' ∧ d'.id = d.id ∧ d'.listeners = d.listeners
  := by
  cases h with
  | nothing _ _ desks =>
      rw [desks]
      exact ⟨d, hd, rfl, rfl⟩
  | @injected payload _ _ desks =>
      rw [desks, List.getElem?_map, hd]
      exact ⟨d.receive [payload], rfl, rfl, rfl⟩
  | delivered found _ _ desks =>
      rw [desks]
      apply exists_of_set found _ _ i d hd
      · rfl
      · rfl
  | committed found _ _ _ desks =>
      obtain ⟨e, he, hid, hl⟩ := exists_of_set found rfl rfl i d hd (d := Desk.publish _ _)
      rw [desks, List.getElem?_map, he]
      exact ⟨_, rfl, hid, hl⟩

/-- An announcement that is sound stays so, whatever else happens. -/
theorem Change.sound (h : Change k a (reply, k')) {s : Sending}
    (hs : (∀ r, s.stage ≠ .ended r) ∧
      ∃ d, k.desks[s.place]? = some d ∧ s.stage.Sound d.id s.config) :
  (∀ r, s.stage ≠ .ended r) ∧
    ∃ d, k'.desks[s.place]? = some d ∧ s.stage.Sound d.id s.config
  := by
  obtain ⟨hgoing, d, hd, hsound⟩ := hs
  obtain ⟨d', hd', hid, -⟩ := h.keeps hd
  use hgoing, d', hd'
  rw [hid]
  apply hsound

/-- Only announcing changes which announcements are on their way. -/
theorem sendings_act (k : Cluster) {a : Act} (hcall : ∀ place t c, a ≠ .call place t c)
    (hproceed : ∀ i, a ≠ .proceed i) :
  (act a k).2.sendings = k.sendings
  := by
  cases a with
  | call place t c => apply absurd rfl (hcall place t c)
  | proceed i => apply absurd rfl (hproceed i)
  | inject payload => rfl
  | deliver place i =>
      obtain h | ⟨_, _, -, -, h⟩ := act_deliver k place i
      · rw [h]
      · rw [h]
  | replay place after limit =>
      obtain h | ⟨_, _, _, -, -, h⟩ := act_replay k place after limit
      · rw [h]
      · rw [h]
  | fail fault => rfl

/-- An announcement that has begun is sound. -/
theorem sound_call (hk : k.Sound) (place : Nat) (t : Token) (c : ServerConfig) :
  (act (.call place t c) k).2.Sound
  := by
  have hc := change_call k place t c
  intro s hs
  apply hc.sound
  obtain h | ⟨n, idle, hn, -, reply, sendings, h, hreply⟩ := act_call k place t c
  · rw [h] at hs
    apply hk s hs
  · rw [h] at hs
    obtain ⟨e, -, rfl⟩ | ⟨p, -, -, rfl⟩ := hreply
    · apply hk s hs
    · obtain hs | hs := List.mem_append.mp hs
      · apply hk s hs
      · obtain rfl := List.mem_singleton.mp hs
        constructor
        · rintro r ⟨⟩
        · exact ⟨n.desk, desks_getElem? hn, .taken p⟩

/-- An announcement that goes on stays sound. -/
theorem sound_proceed (hk : k.Sound) (i : Nat) :
  (act (.proceed i) k).2.Sound
  := by
  have hc := change_proceed hk i
  intro s hs
  apply hc.sound
  obtain h | ⟨s', n, stage, n', -, hn, hsound, hstep, h⟩ := act_proceed hk i
  · rw [h] at hs
    apply hk s hs
  · rw [h] at hs
    obtain hs | ⟨rfl, hgoing⟩ := of_mem_bring hs
    · apply hk s hs
    · exact ⟨hgoing, n.desk, desks_getElem? hn, hstep.sound hsound⟩

/-- What does not announce leaves the announcements sound. -/
theorem Sound.idle (hk : k.Sound) {a : Act} (hcall : ∀ place t c, a ≠ .call place t c)
    (hproceed : ∀ i, a ≠ .proceed i) :
  (act a k).2.Sound
  := by
  have hc := change_act hk a
  intro s hs
  apply hc.sound
  rw [sendings_act k hcall hproceed] at hs
  apply hk s hs

/-- Whatever happens, the announcements on their way stay sound. -/
theorem sound_act (hk : k.Sound) (a : Act) :
  (act a k).2.Sound
  := by
  cases a with
  | call place t c => apply sound_call hk
  | proceed i => apply sound_proceed hk
  | inject payload => apply hk.idle (by rintro _ _ _ ⟨⟩) (by rintro _ ⟨⟩)
  | deliver place i => apply hk.idle (by rintro _ _ _ ⟨⟩) (by rintro _ ⟨⟩)
  | replay place after limit => apply hk.idle (by rintro _ _ _ ⟨⟩) (by rintro _ ⟨⟩)
  | fail fault => apply hk.idle (by rintro _ _ _ ⟨⟩) (by rintro _ ⟨⟩)

end

end Cluster

end ApiIntake.Database
