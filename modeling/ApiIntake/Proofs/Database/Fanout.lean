import ApiIntake.Proofs.Database.Cluster
import ApiIntake.Proofs.Feed.Broadcast
import ApiIntake.Proofs.Store.Catalog
import Mathlib.Data.List.Perm.Basic

/-!
# Announcements reach every node

In a cluster of nodes that listen and have different names, every feed is given what was
committed, each announcement once, and nothing else (`Cluster.feeds_carry_committed`): what a
node committed itself at once, and what others committed when it is relayed.

This is shown at each node by itself: what its feed was given and what it has still to relay
are together what was committed (`Desk.Served`).
-/

namespace ApiIntake.Database

open ApiIntake.Feed (Update Broadcast)

/-! ### One node -/

namespace Desk

variable {d : Desk} {feed : Broadcast} {updates : List Update}

/-- The announcements of others that have reached a node and were not relayed yet. -/
def pending (d : Desk) : List Update := d.arrived.filterMap (foreign? d.id)

/-- The feed of a node was given some announcements, and with those that it has still to relay
they are the given ones, each once. -/
def Served (feed : Broadcast) (updates : List Update) (d : Desk) : Prop :=
  ∃ us, d.feed = feed.publishAll us ∧ (us ++ d.pending).Perm updates

/-- What reaches a node is pending if it is foreign. -/
theorem pending_receive (payload : String) (d : Desk) :
  (d.receive [payload]).pending = d.pending ++ (foreign? d.id payload).toList
  := by
  rw [pending, receive, List.filterMap_append, pending]
  cases h : foreign? d.id payload with
  | none => rw [List.filterMap_cons_none h]; rfl
  | some u => rw [List.filterMap_cons_some h]; rfl

/-- What cannot be read is not pending. -/
theorem Served.injected {payload : String} (h : d.Served feed updates)
    (hp : Dispatch.ofPayload? payload = none) :
  (d.receive [payload]).Served feed updates
  := by
  obtain ⟨us, hfeed, hperm⟩ := h
  have hf : foreign? d.id payload = none := by rw [foreign?, hp, Option.bind_none]
  use us, hfeed
  rw [pending_receive, hf, Option.toList_none, List.append_nil]
  apply hperm

/-- A foreign announcement that is handed to the one listener is given to the feed and is no
more pending; anything else is passed over. -/
theorem Served.heard {i : Nat} {payload : String} (h : d.Served feed updates)
    (one : d.listeners = 1) (hi : d.arrived[i]? = some payload) :
  (d.hear i payload).Served feed updates
  := by
  obtain ⟨us, hfeed, hperm⟩ := h
  obtain ⟨hlt, rfl⟩ := List.getElem?_eq_some_iff.mp hi
  have hsplit : ((foreign? d.id d.arrived[i]).toList ++ (d.hear i d.arrived[i]).pending).Perm
      d.pending := by
    apply List.Perm.trans _ ((List.getElem_cons_eraseIdx_perm hlt).filterMap _)
    cases hf : foreign? d.id d.arrived[i] with
    | none => rw [List.filterMap_cons_none hf]; rfl
    | some u => rw [List.filterMap_cons_some hf]; rfl
  use us ++ (foreign? d.id d.arrived[i]).toList
  constructor
  · have hr : (d.hear i d.arrived[i]).feed = relay d.id d.feed d.arrived[i] := by
      rw [hear, one]
      rfl
    rw [hr, relay_eq, hfeed]
    cases foreign? d.id d.arrived[i] with
    | none => rw [Option.toList_none, List.append_nil]; rfl
    | some u => rw [Option.toList_some, Broadcast.publishAll_concat]; rfl
  · rw [List.append_assoc]
    apply (hsplit.append_left us).trans hperm

/-- What a node commits is given to its feed at once, and its own notification is passed
over. -/
theorem Served.committed_here {u : Update} (h : d.Served feed updates)
    (number : u.eventId < Update.eventIdBound) :
  ((d.publish u).receive [Dispatch.payload ⟨d.id, u⟩]).Served feed (updates ++ [u])
  := by
  obtain ⟨us, hfeed, hperm⟩ := h
  have hf : foreign? (d.publish u).id (Dispatch.payload ⟨d.id, u⟩) = none := by
    rw [foreign?_payload number]
    apply if_pos rfl
  use us ++ [u]
  constructor
  · rw [Broadcast.publishAll_concat, ← hfeed]
    rfl
  · rw [pending_receive, hf, Option.toList_none, List.append_nil, List.append_assoc]
    apply (List.perm_append_comm.append_left us).trans
    rw [← List.append_assoc]
    apply hperm.append_right

/-- What another node commits is pending. -/
theorem Served.committed_elsewhere {origin : String} {u : Update} (h : d.Served feed updates)
    (other : origin ≠ d.id) (number : u.eventId < Update.eventIdBound) :
  (d.receive [Dispatch.payload ⟨origin, u⟩]).Served feed (updates ++ [u])
  := by
  obtain ⟨us, hfeed, hperm⟩ := h
  have hf : foreign? d.id (Dispatch.payload ⟨origin, u⟩) = some u := by
    rw [foreign?_payload number]
    apply if_neg other
  use us, hfeed
  rw [pending_receive, hf, Option.toList_some, ← List.append_assoc]
  apply hperm.append_right

end Desk

/-! ### All nodes -/

namespace Cluster

variable {k k' : Cluster} {server : Server} {members : List (String × Broadcast)}
  {updates : List Update} {a : Act} {reply : Reply} {i j : Nat} {d e : Desk}

/-- The database holds the events of what was committed, and every node of the cluster was
served with it. -/
structure Fanned (server : Server) (members : List (String × Broadcast))
    (updates : List Update) (k : Cluster) : Prop where
  /-- The announcements that are on their way are sound. -/
  sound : k.Sound
  /-- What was committed is recorded. -/
  recorded : k.server.tables = (updates.map rowOf).foldl Tables.putEvent server.tables
  /-- All nodes are there. -/
  count : k.desks.length = members.length
  /-- They keep their names and their listener, and they were served. -/
  served : ∀ (i : Nat) (d : Desk), k.desks[i]? = some d →
    ∃ feed, members[i]? = some (d.id, feed) ∧ d.listeners = 1 ∧ d.Served feed updates

/-- At first nothing was committed. -/
theorem fanned_ofMembers (server : Server) (poolSize : Nat)
    (members : List (String × Broadcast)) :
  Fanned server members [] (ofMembers server poolSize members)
  := by
  have hdesks : (ofMembers server poolSize members).desks =
      members.map fun m => ⟨m.1, 1, m.2, []⟩ := by
    rw [desks, ofMembers, List.map_map]
    rfl
  constructor
  · intro s hs
    cases hs
  · rfl
  · rw [hdesks, List.length_map]
  · intro i d hd
    rw [hdesks, List.getElem?_map] at hd
    obtain ⟨⟨id, feed⟩, hm, rfl⟩ := Option.map_eq_some_iff.mp hd
    use feed, hm, rfl, []
    exact ⟨rfl, .refl []⟩

/-- Nodes in different places have different names. -/
theorem Fanned.eq_of_id (h : Fanned server members updates k)
    (distinct : (members.map Prod.fst).Nodup) (hd : k.desks[i]? = some d)
    (he : k.desks[j]? = some e) (hid : d.id = e.id) :
  i = j
  := by
  obtain ⟨feed, hi, -⟩ := h.served i d hd
  obtain ⟨feed', hj, -⟩ := h.served j e he
  have hi' : (members.map Prod.fst)[i]? = some d.id := by rw [List.getElem?_map, hi]; rfl
  have hj' : (members.map Prod.fst)[j]? = some e.id := by rw [List.getElem?_map, hj]; rfl
  apply (List.getElem?_inj (List.getElem?_eq_some_iff.mp hi').1 distinct).mp
  rw [hi', hj', hid]

/-- After one desk was replaced, a desk is the new one or stands in another place. -/
theorem of_getElem?_set {ds : List Desk} {place : Nat} (h : (ds.set place d)[i]? = some e) :
  (place = i ∧ e = d) ∨ (place ≠ i ∧ ds[i]? = some e)
  := by
  rw [List.getElem?_set] at h
  split at h
  · rename_i hp
    left
    split at h
    · exact ⟨hp, (Option.some.inj h).symm⟩
    · cases h
  · rename_i hp
    right
    exact ⟨hp, h⟩

/-- All nodes were served still when what reaches them cannot be read. -/
theorem Fanned.injected {payload : String} (h : Fanned server members updates k)
    (undecodable : Dispatch.ofPayload? payload = none)
    (tables : k'.server.tables = k.server.tables)
    (desks : k'.desks = k.desks.map (Desk.receive [payload])) (sound : k'.Sound) :
  Fanned server members updates k'
  := by
  constructor
  · apply sound
  · rw [tables, h.recorded]
  · rw [desks, List.length_map, h.count]
  · intro i d hd
    rw [desks, List.getElem?_map] at hd
    obtain ⟨e, he, rfl⟩ := Option.map_eq_some_iff.mp hd
    obtain ⟨feed, hm, one, hserved⟩ := h.served i e he
    exact ⟨feed, hm, one, hserved.injected undecodable⟩

/-- All nodes were served still when one of them hands a notification to its listener. -/
theorem Fanned.delivered {payload : String} (h : Fanned server members updates k)
    (found : k.desks[i]? = some d) (arrived : d.arrived[j]? = some payload)
    (tables : k'.server.tables = k.server.tables)
    (desks : k'.desks = k.desks.set i (d.hear j payload)) (sound : k'.Sound) :
  Fanned server members updates k'
  := by
  constructor
  · apply sound
  · rw [tables, h.recorded]
  · rw [desks, List.length_set, h.count]
  · intro i e he
    rw [desks] at he
    obtain ⟨rfl, rfl⟩ | ⟨-, he⟩ := of_getElem?_set he
    · obtain ⟨feed, hm, one, hserved⟩ := h.served _ d found
      exact ⟨feed, hm, one, hserved.heard one arrived⟩
    · apply h.served i e he

/-- All nodes are served with what one of them commits. -/
theorem Fanned.committed {u : Update} (h : Fanned server members updates k)
    (distinct : (members.map Prod.fst).Nodup) (number : u.eventId < Update.eventIdBound)
    (found : k.desks[i]? = some d) (tables : k'.server.tables = k.server.tables.putEvent (rowOf u))
    (desks : k'.desks =
      (k.desks.set i (d.publish u)).map (Desk.receive [Dispatch.payload ⟨d.id, u⟩]))
    (sound : k'.Sound) :
  Fanned server members (updates ++ [u]) k'
  := by
  constructor
  · apply sound
  · rw [tables, h.recorded, List.map_append, List.foldl_append]
    rfl
  · rw [desks, List.length_map, List.length_set, h.count]
  · intro j e' he'
    rw [desks, List.getElem?_map] at he'
    obtain ⟨e, he, rfl⟩ := Option.map_eq_some_iff.mp he'
    obtain ⟨rfl, rfl⟩ | ⟨hp, he⟩ := of_getElem?_set he
    · obtain ⟨feed, hm, one, hserved⟩ := h.served _ d found
      exact ⟨feed, hm, one, hserved.committed_here number⟩
    · obtain ⟨feed, hm, one, hserved⟩ := h.served j e he
      have hother : d.id ≠ e.id := by
        intro hid
        apply hp
        apply h.eq_of_id distinct found he hid
      exact ⟨feed, hm, one, hserved.committed_elsewhere hother number⟩

/-- Nothing that happens loses or repeats an announcement, if what others send cannot be read
and the number of what is committed has 64 bits. -/
theorem Fanned.change (h : Fanned server members updates k)
    (distinct : (members.map Prod.fst).Nodup)
    (undecodable : ∀ payload, a = .inject payload → Dispatch.ofPayload? payload = none)
    (number : ∀ u, reply.committed? = some u → u.eventId < Update.eventIdBound)
    (hc : Change k a (reply, k')) (sound : k'.Sound) :
  Fanned server members (updates ++ reply.committed?.toList) k'
  := by
  cases hc with
  | nothing quiet tables desks =>
      rw [quiet, Option.toList_none, List.append_nil]
      constructor
      · apply sound
      · rw [tables, h.recorded]
      · rw [desks, h.count]
      · rw [desks]
        apply h.served
  | @injected payload _ tables desks =>
      change Fanned server members (updates ++ []) k'
      rw [List.append_nil]
      apply h.injected (undecodable payload rfl) tables desks sound
  | delivered found arrived tables desks =>
      change Fanned server members (updates ++ []) k'
      rw [List.append_nil]
      apply h.delivered found arrived tables desks sound
  | committed found new known tables desks =>
      apply h.committed distinct (number _ rfl) found tables desks sound

/-- Throughout a run, the database and all nodes were served with what was committed. -/
theorem fanned_run {poolSize : Nat} {acts : List Act} (distinct : (members.map Prod.fst).Nodup)
    (undecodable : ∀ payload, .inject payload ∈ acts → Dispatch.ofPayload? payload = none)
    (numbers : ∀ u ∈ committed (history act (ofMembers server poolSize members) acts),
      u.eventId < Update.eventIdBound) :
  Fanned server members (committed (history act (ofMembers server poolSize members) acts))
    (reached act (ofMembers server poolSize members) acts)
  := by
  revert numbers
  apply run_keeps (P := fun turns (k : Cluster) =>
    (∀ u ∈ committed turns, u.eventId < Update.eventIdBound) →
      Fanned server members (committed turns) k)
  · intro _
    apply fanned_ofMembers
  · intro a ha turns k ih numbers
    rw [committed_concat] at numbers ⊢
    have hk := ih fun u hu => numbers u (List.mem_append_left _ hu)
    have hc := change_act hk.sound a
    have hsound := sound_act hk.sound a
    generalize act a k = r at hc hsound numbers ⊢
    apply hk.change distinct _ _ hc hsound
    · rintro payload rfl
      apply undecodable payload ha
    · intro u hu
      apply numbers u
      rw [hu]
      apply List.mem_append_right
      apply List.mem_singleton_self

/-- Nodes that listen and have different names share a database, however it runs transactions and
whatever it holds.  They are called to announce
configurations, and the statements of their announcements follow each other in any order, some
given up and some failing; others send what cannot be read; and notifications are handed on in
any order.  Then the database holds the events of those announcements that were committed, and
besides what still waits to be relayed every feed was given just these, whatever it keeps; so
a node that has nothing left to relay has published each of them once. -/
theorem feeds_carry_committed (server : Server) (poolSize : Nat)
    (members : List (String × Broadcast)) (acts : List Act)
    (distinct : (members.map Prod.fst).Nodup)
    (undecodable : ∀ payload, .inject payload ∈ acts → Dispatch.ofPayload? payload = none)
    (numbers : ∀ u ∈ committed (history act (ofMembers server poolSize members) acts),
      u.eventId < Update.eventIdBound) :
  let updates := committed (history act (ofMembers server poolSize members) acts)
  let k := reached act (ofMembers server poolSize members) acts
  k.server.tables = (updates.map rowOf).foldl Tables.putEvent server.tables ∧
    k.nodes.length = members.length ∧
    ∀ (i : Nat) (n : Node), k.nodes[i]? = some n →
      ∃ feed, members[i]? = some (n.id, feed) ∧
        ∃ us, n.feed = feed.publishAll us ∧
          (us ++ n.arrived.filterMap (foreign? n.id)).Perm updates ∧
          (n.arrived = [] → us.Perm updates)
  := by
  have h := fanned_run distinct undecodable numbers
  intro updates k
  use h.recorded
  constructor
  · rw [← h.count, desks, List.length_map]
  · intro i n hn
    obtain ⟨feed, hm, -, us, hfeed, hperm⟩ := h.served i n.desk (desks_getElem? hn)
    use feed, hm, us, hfeed, hperm
    intro hn
    rw [Desk.pending, Node.desk, hn, List.filterMap_nil, List.append_nil] at hperm
    apply hperm

/-- A database that holds one configuration. -/
def bareServer : Server := { Server.empty .reading with tables := ⟨[.ofConfig bareConfig], []⟩ }

/-- Two nodes. -/
def pair : List (String × Broadcast) := [("a", .ofCapacity 1), ("b", .ofCapacity 1)]

/-- Both nodes announce the configuration at the same time.  The second gives up, and what
others send cannot be read. -/
def rivalry : List Act :=
  [.inject "noise", .call 0 .live bareConfig, .call 1 ⟨false, some .begin⟩ bareConfig,
    .proceed 0, .proceed 1, .proceed 0, .proceed 0, .proceed 0, .deliver 1 1, .deliver 1 0]

/-- What the first node announced is on the feed of the second as well. -/
theorem feeds_carry_bareConfig :
  committed (history act (ofMembers bareServer 5 pair) rivalry) = [.ofConfig bareConfig 1] ∧
    ∀ n, (reached act (ofMembers bareServer 5 pair) rivalry).nodes[1]? = some n →
      n.feed = (Broadcast.ofCapacity 1).publishAll [.ofConfig bareConfig 1]
  := by
  obtain ⟨hcommitted, hrelayed⟩ : committed (history act (ofMembers bareServer 5 pair) rivalry) =
        [.ofConfig bareConfig 1] ∧
      ((reached act (ofMembers bareServer 5 pair) rivalry).nodes[1]?.map fun n => n.arrived) =
        some [] := by
    decide +kernel
  have hrun := feeds_carry_committed bareServer 5 pair rivalry (by decide)
  rw [hcommitted] at hrun
  obtain ⟨-, -, hserved⟩ := hrun
    (by
      intro payload hp
      obtain rfl : payload = "noise" := by simpa [rivalry] using hp
      decide +kernel)
    (by
      intro u hu
      obtain rfl := List.mem_singleton.mp hu
      decide +kernel)
  use hcommitted
  intro n hn
  obtain ⟨feed, hfeed, us, hus, -, hperm⟩ := hserved 1 n hn
  rw [hn] at hrelayed
  rw [hus, List.perm_singleton.mp (hperm (Option.some.inj hrelayed))]
  obtain rfl : Broadcast.ofCapacity 1 = feed := congrArg Prod.snd (Option.some.inj hfeed)
  rfl

end Cluster

end ApiIntake.Database
