import ApiIntake.Proofs.Conversion.Place
import ApiIntake.Proofs.Conversion.Rejection
import ApiIntake.Proofs.Outcome
import Mathlib.Data.List.Forall2

/-!
# Tools as drafts under new names

The selected operations of a document stand in one list (`offersOf`).  Each of them has a
draft: its tool as it would be if no name were taken.  The tools of a document are the
drafts in the order of the operations, each under a name that is new behind the others
(`of_toolsOfPaths`).
-/

namespace ApiIntake

open ApiIntake.OpenApi

/-- An operation on a path, with the parameters that it shares with others. -/
structure Offer where
  /-- The path. -/
  path : String
  /-- The parameters of the path item. -/
  common : List (RefOr Parameter)
  /-- The method. -/
  method : Method
  /-- The operation. -/
  op : Operation

namespace Offer

/-- The name of an operation before it is made new. -/
def base (o : Offer) : String := baseName o.method o.path o.op

/-- The tool for an operation if no name is taken. -/
def draft (r : RefScope) (o : Offer) : Except ConvertError Tool :=
  toolOf r [] o.path o.common o.method o.op

end Offer

/-- The selected operations of a path item. -/
def offersOfItem (selection : Discovery) (path : String) (item : PathItem) : List Offer :=
  (selectedOperations selection path item).map fun o => ⟨path, item.parameters, o.1, o.2⟩

/-- The selected operations of paths, in their order. -/
def offersOf (r : RefScope) (selection : Discovery) (paths : List (String × RefOr PathItem)) :
    List Offer :=
  paths.flatMap fun p =>
    match r.resolve PathItem.decode? p.2 with
    | .ok item => offersOfItem selection p.1 item
    | .error _ => []

/-- A tool under another name. -/
def Tool.renamed (t : Tool) (name : String) : Tool := { t with name }

/-- Tools one behind the other, each under a name that is not taken. -/
def named : List String → List Tool → List Tool
  | _, [] => []
  | taken, t :: rest =>
    t.renamed (freeName taken t.name) :: named (taken ++ [freeName taken t.name]) rest

section

variable {r : RefScope} {selection : Discovery} {taken : List String} {path : String}
  {common : List (RefOr Parameter)} {method : Method} {op : Operation} {o : Offer} {t : Tool}
  {tools tools' drafts : List Tool}

/-! ### Drafts -/

/-- A tool is the draft under a name that is not taken. -/
theorem toolOf_eq_map :
  toolOf r taken path common method op =
    (Offer.draft r ⟨path, common, method, op⟩).map fun t => t.renamed (freeName taken t.name)
  := by
  rw [Offer.draft, toolOf, toolOf]
  cases argumentsOfOperation r common op with
  | error e => rfl
  | ok args => rfl

/-- A draft has the name, the method and the path of its operation. -/
theorem of_draft (h : o.draft r = .ok t) :
  t.name = o.base ∧ t.method = o.method.upper ∧ t.path = o.path
  := by
  rw [Offer.draft, toolOf] at h
  obtain ⟨args, -, h⟩ := bind_eq_ok_iff.mp h
  cases h
  use rfl, rfl

/-- What is the same of every draft and its operation is the same along a list of them. -/
theorem map_drafts {β : Type} {offers : List Offer} {f : Tool → β} {g : Offer → β}
    (hf : ∀ o t, o.draft r = .ok t → f t = g o)
    (h : List.Forall₂ (fun o t => o.draft r = .ok t) offers drafts) :
  drafts.map f = offers.map g
  := by
  induction h with
  | nil => rfl
  | cons hd _ ih => rw [List.map_cons, List.map_cons, hf _ _ hd, ih]

/-! ### Names -/

/-- Names are given behind others as they are given in one go. -/
theorem named_append (taken : List String) (l l' : List Tool) :
  named taken (l ++ l') = named taken l ++ named (taken ++ (named taken l).map (·.name)) l'
  := by
  induction l generalizing taken with
  | nil => rw [List.nil_append, named, List.map_nil, List.append_nil, List.nil_append]
  | cons t l ih =>
      rw [List.cons_append, named, ih, named, List.cons_append, List.append_assoc]
      rfl

/-- Naming changes nothing that does not hang on names. -/
theorem map_named {β : Type} {f : Tool → β} (hf : ∀ t name, f (t.renamed name) = f t)
    (taken : List String) (l : List Tool) :
  (named taken l).map f = l.map f
  := by
  induction l generalizing taken with
  | nil => rfl
  | cons t l ih => rw [named, List.map_cons, List.map_cons, hf, ih]

/-- Tools whose names differ and are not taken keep them. -/
theorem named_of_nodup (h : (taken ++ drafts.map (·.name)).Nodup) :
  named taken drafts = drafts
  := by
  induction drafts generalizing taken with
  | nil => rfl
  | cons t l ih =>
      rw [List.map_cons] at h
      have hn : t.name ∉ taken := by
        intro ht
        apply (List.nodup_append.mp h).2.2 _ ht _ List.mem_cons_self rfl
      have hf : freeName taken t.name = t.name := by
        rw [freeName, if_neg (by simpa using hn)]
      rw [List.append_cons] at h
      rw [named, hf, ih h]
      rfl

/-! ### All tools -/

/-- The tools for operations of a path item are their drafts under new names. -/
theorem of_addTools {ops : List (Method × Operation)}
    (h : addTools r path common tools ops = .ok tools') :
  ∃ drafts,
    List.Forall₂ (fun o t => Offer.draft r o = .ok t)
      (ops.map fun o => ⟨path, common, o.1, o.2⟩) drafts ∧
    tools' = tools ++ named (tools.map (·.name)) drafts
  := by
  induction ops generalizing tools with
  | nil =>
      cases h
      use [], List.Forall₂.nil
      rw [named, List.append_nil]
  | cons o rest ih =>
      rw [addTools] at h
      obtain ⟨tool, ht, h⟩ := bind_eq_ok_iff.mp h
      rw [toolOf_eq_map] at ht
      obtain ⟨t, hdraft, rfl⟩ := map_eq_ok_iff.mp ht
      obtain ⟨drafts, hd, rfl⟩ := ih h
      use t :: drafts, List.Forall₂.cons hdraft hd
      rw [List.map_append, List.append_assoc, named]
      rfl

/-- The tools for paths are the drafts of the selected operations under new names. -/
theorem of_toolsOfPaths {paths : List (String × RefOr PathItem)}
    (h : toolsOfPaths r selection tools paths = .ok tools') :
  ∃ drafts,
    List.Forall₂ (fun o t => o.draft r = .ok t) (offersOf r selection paths) drafts ∧
    tools' = tools ++ named (tools.map (·.name)) drafts
  := by
  induction paths generalizing tools with
  | nil =>
      cases h
      use [], List.Forall₂.nil
      rw [named, List.append_nil]
  | cons p rest ih =>
      rw [toolsOfPaths] at h
      obtain ⟨item, hi, h⟩ := bind_eq_ok_iff.mp h
      obtain ⟨tools₁, h₁, h⟩ := bind_eq_ok_iff.mp h
      obtain ⟨drafts₁, hd₁, rfl⟩ := of_addTools h₁
      obtain ⟨drafts, hd, rfl⟩ := ih h
      use drafts₁ ++ drafts
      constructor
      · rw [offersOf, List.flatMap_cons, mapError_eq_ok_iff.mp hi]
        apply List.rel_append hd₁ hd
      · rw [List.append_assoc, named_append, List.map_append]

/-- The configuration of the server for a document, given its tools. -/
def configWith (s : Settings) (destination : Destination) (d : Document) (hash : String)
    (tools : List Tool) : ServerConfig :=
  let name := nameFromTitle (Text.trim d.title) hash
  { name
    tenant := (s.place destination name).1
    pathPrefix := (s.place destination name).2
    baseUrl := d.serverUrl
    tools
    metadata := metadataOf d hash }

/-- What a document is converted to has the drafts of the selected operations under new names
as its tools. -/
theorem of_convertDocument {s : Settings} {destination : Destination} {d : Document}
    {hash : String} {c : ServerConfig} (h : convertDocument s destination d hash = .ok c) :
  ∃ drafts,
    List.Forall₂ (fun o t => o.draft ⟨d.root⟩ = .ok t)
      (offersOf ⟨d.root⟩ s.discovery d.paths) drafts ∧
    c = configWith s destination d hash (named [] drafts)
  := by
  rw [convertDocument] at h
  by_cases title : (Text.trim d.title).isEmpty = true
  · rw [if_pos title] at h
    cases h
  rw [if_neg title] at h
  by_cases paths : d.paths.isEmpty = true
  · rw [if_pos paths] at h
    cases h
  rw [if_neg paths] at h
  obtain ⟨tools, ht, h⟩ := bind_eq_ok_iff.mp h
  by_cases none : tools.isEmpty = true
  · rw [if_pos none] at h
    cases h
  rw [if_neg none] at h
  obtain ⟨drafts, hd, rfl⟩ := of_toolsOfPaths ht
  use drafts, hd
  apply (Except.ok.inj h).symm

end

end ApiIntake
