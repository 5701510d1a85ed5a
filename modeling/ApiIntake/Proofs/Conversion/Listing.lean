import ApiIntake.Proofs.Conversion.Offers
import ApiIntake.Proofs.OpenApi.Paths
import ApiIntake.Proofs.OpenApi.Reference
import Mathlib.Data.List.Nodup

/-!
# The calls of a converted document

A call is a method and a path.  The calls of a document are listed path by path, each path
item being the one that its references lead to, and under each path in a fixed order of the
methods (`Lists`).  The tools of a converted document make these calls, each of them once
(`calls_of_convert`).
-/

namespace ApiIntake

open ApiIntake.OpenApi

/-- What a tool calls. -/
def Tool.call (t : Tool) : String × String := (t.method, t.path)

/-- The selected calls of the operations of a path item. -/
def callsOfItem (selection : Discovery) (path : String) (item : PathItem) :
    List (String × String) :=
  let methods : List Method := [.get, .put, .post, .delete, .options, .head, .patch, .trace]
  (methods.filter fun m => (item.operation m).isSome && selection.selects m path).map fun m =>
    (m.upper, path)

/-- The selected calls of paths. -/
inductive Lists (r : RefScope) (selection : Discovery) :
    List (String × RefOr PathItem) → List (String × String) → Prop
  /-- Where there are no paths there are no calls. -/
  | nil :
    Lists r selection [] []
  /-- The calls of the first path come first. -/
  | cons {path : String} {ref : RefOr PathItem} {item : PathItem}
    {paths : List (String × RefOr PathItem)} {calls : List (String × String)}
    (found : r.LeadsTo PathItem.decode? ref item) (rest : Lists r selection paths calls) :
    Lists r selection ((path, ref) :: paths) (callsOfItem selection path item ++ calls)

section

variable {r : RefScope} {selection : Discovery} {path : String} {item : PathItem}
  {paths : List (String × RefOr PathItem)} {calls : List (String × String)}

/-! ### Listing offers -/

/-- What an operation is called by. -/
def Offer.call (o : Offer) : String × String := (o.method.upper, o.path)

/-- The selected operations of a path item make its selected calls. -/
theorem map_call_offersOfItem :
  (offersOfItem selection path item).map Offer.call = callsOfItem selection path item
  := by
  rw [offersOfItem, selectedOperations, PathItem.operations, callsOfItem, ← Method.all]
  induction Method.all with
  | nil => rfl
  | cons m rest ih =>
      cases ho : item.operation m with
      | none => simp [ho, ih]
      | some op =>
          cases hs : selection.selects m path with
          | false => simp [ho, hs, ih]
          | true => simp [ho, hs, ih, Offer.call]

/-- The calls of the selected operations are the listed ones. -/
theorem lists_offersOf
    (found : ∀ p ∈ paths, ∃ item, r.resolve PathItem.decode? p.2 = .ok item) :
  Lists r selection paths ((offersOf r selection paths).map Offer.call)
  := by
  induction paths with
  | nil => apply Lists.nil
  | cons p rest ih =>
      obtain ⟨⟨item, hi⟩, found⟩ := List.forall_mem_cons.mp found
      rw [offersOf, List.flatMap_cons, hi, List.map_append, map_call_offersOfItem]
      apply Lists.cons (RefScope.leadsTo_of_resolve hi) (ih found)

/-- Only one list has the selected calls of paths. -/
theorem Lists.unique {calls' : List (String × String)} (h : Lists r selection paths calls)
    (h' : Lists r selection paths calls') :
  calls = calls'
  := by
  induction h generalizing calls' with
  | nil =>
      cases h'
      rfl
  | cons found rest ih =>
      cases h' with
      | cons found' rest' => rw [found.unique found', ih rest']

/-! ### No call twice -/

/-- Methods with the same name are the same. -/
theorem OpenApi.Method.upper_injective :
  Function.Injective Method.upper
  := by
  intro m n h
  cases m <;> cases n <;> simp_all [Method.upper]

/-- No call of a path item occurs twice. -/
theorem nodup_callsOfItem :
  (callsOfItem selection path item).Nodup
  := by
  apply List.Nodup.map
  · intro m n h
    apply Method.upper_injective (Prod.mk.inj h).1
  · apply List.Nodup.filter
    decide

/-- The calls of a path item go to its path. -/
theorem path_of_mem_callsOfItem {call : String × String}
    (h : call ∈ callsOfItem selection path item) :
  call.2 = path
  := by
  obtain ⟨m, -, rfl⟩ := List.mem_map.mp h
  rfl

/-- A listed call goes to one of the paths. -/
theorem Lists.path_mem (h : Lists r selection paths calls) :
  ∀ call ∈ calls, call.2 ∈ paths.map (·.1)
  := by
  induction h with
  | nil =>
      intro call hc
      cases hc
  | cons found rest ih =>
      intro call hc
      obtain hc | hc := List.mem_append.mp hc
      · rw [path_of_mem_callsOfItem hc]
        apply List.mem_cons_self
      · apply List.mem_cons_of_mem _ (ih call hc)

/-- No call is listed twice if no path occurs twice. -/
theorem Lists.nodup (h : Lists r selection paths calls) (distinct : (paths.map (·.1)).Nodup) :
  calls.Nodup
  := by
  induction h with
  | nil => apply List.nodup_nil
  | cons found rest ih =>
      obtain ⟨hp, distinct⟩ := List.nodup_cons.mp distinct
      apply List.nodup_append.mpr
      use nodup_callsOfItem, ih distinct
      rintro call hc _ hr rfl
      apply hp
      rw [← path_of_mem_callsOfItem hc]
      apply rest.path_mem call hr

end

/-! ### Tools -/

/-- The tools of a converted document make the selected calls and no others, in the order of
the document and each of them once. -/
theorem calls_of_convert {s : Settings} {destination : Destination} {bytes : List UInt8}
    {c : ServerConfig} (h : convert s destination bytes = .ok c) :
  ∃ d, readDocument bytes = .ok d ∧
    (∀ calls, Lists ⟨d.root⟩ s.discovery d.paths calls ↔ calls = c.tools.map Tool.call) ∧
    (c.tools.map Tool.call).Nodup
  := by
  obtain ⟨d, hd, h⟩ := bind_eq_ok_iff.mp h
  obtain ⟨drafts, hdrafts, rfl⟩ := of_convertDocument h
  have hcalls : (named [] drafts).map Tool.call =
      (offersOf ⟨d.root⟩ s.discovery d.paths).map Offer.call := by
    rw [map_named fun t name => rfl]
    apply map_drafts _ hdrafts
    intro o t ht
    obtain ⟨-, hm, hp⟩ := of_draft ht
    rw [Tool.call, hm, hp]
    rfl
  have hlists : Lists ⟨d.root⟩ s.discovery d.paths ((named [] drafts).map Tool.call) := by
    rw [hcalls]
    apply lists_offersOf (exists_convertDocument_iff.mp ⟨_, h⟩).pathItems
  use d, hd
  constructor
  · intro calls
    constructor
    · intro h
      apply h.unique hlists
    · rintro rfl
      apply hlists
  · apply hlists.nodup (nodup_paths hd)

/-- A document with two operations on a path, of which another path has the same ones. -/
def sharedDocument : List UInt8 :=
  ("\x7b\"openapi\":\"3.0\",\"info\":\x7b\"title\":\"T\",\"version\":\"1\"\x7d,\"paths\":" ++
    "\x7b\"/a\":\x7b\"get\":\x7b\"responses\":\x7b\x7d\x7d,\"post\":\x7b\"responses\":\x7b\x7d\x7d\x7d," ++
    "\"/b\":\x7b\"$ref\":\"#/paths/~1a\"\x7d\x7d\x7d").toList.map
      fun c => c.toNat.toUInt8

/-- Settings that select everything but one operation. -/
def exceptOne : Settings := ⟨"default", .patterns [] ["POST /a"]⟩

set_option maxRecDepth 10000 in
/-- Without one operation on the first path, three tools are made of the two paths. -/
theorem tools_of_sharedDocument :
  ((convert exceptOne .byConvention sharedDocument).map fun c => c.tools.map Tool.call) =
    .ok [("GET", "/a"), ("GET", "/b"), ("POST", "/b")]
  := by
  decide +kernel

/-- Three calls are listed for the two paths of the document, and no two of them are the
same. -/
theorem calls_of_sharedDocument :
  ∃ c d, convert exceptOne .byConvention sharedDocument = .ok c ∧
    readDocument sharedDocument = .ok d ∧
    Lists ⟨d.root⟩ exceptOne.discovery d.paths [("GET", "/a"), ("GET", "/b"), ("POST", "/b")] ∧
    (c.tools.map Tool.call).Nodup
  := by
  obtain ⟨c, hc, htools⟩ := map_eq_ok_iff.mp tools_of_sharedDocument
  obtain ⟨d, hd, hlists, hnodup⟩ := calls_of_convert hc
  use c, d, hc, hd, (hlists _).mpr htools.symm

end ApiIntake
