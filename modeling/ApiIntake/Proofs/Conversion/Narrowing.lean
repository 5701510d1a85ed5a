import ApiIntake.Proofs.Conversion.Listing
import Mathlib.Data.List.Forall2
import Mathlib.Tactic.ByContra

/-!
# Selecting less of a document

Settings may select only a part of the operations that other settings select.  By them the
document is converted to the same configuration with that part of the tools, or refused if
the part is empty (`convert_of_narrows`).  An operation that is not selected shows nowhere
but in the names of tools: another one cannot have the name that it takes.
-/

namespace ApiIntake

open ApiIntake.OpenApi

/-- Settings select nothing of a document that others do not select, and have the same
tenant. -/
structure Narrows (s' s : Settings) (d : Document) : Prop where
  /-- The tenant is the same. -/
  tenant : s'.defaultTenant = s.defaultTenant
  /-- What the one settings select, the others select as well. -/
  selected : ∀ {path item method op}, Selected s' d path item method op →
    Selected s d path item method op

/-- Whether the operation of a tool is selected. -/
def Discovery.takes (selection : Discovery) (t : Tool) : Bool :=
  Method.all.any fun m => m.upper = t.method && selection.selects m t.path

/-- A tool without its name. -/
def Tool.unnamed (t : Tool) : Tool := t.renamed ""

/-- A configuration has those of the tools of another one that are selected, under any
names, and is the same else. -/
structure IsPart (selection : Discovery) (c' c : ServerConfig) : Prop where
  /-- The name is the same. -/
  name : c'.name = c.name
  /-- The tenant is the same. -/
  tenant : c'.tenant = c.tenant
  /-- The path is the same. -/
  pathPrefix : c'.pathPrefix = c.pathPrefix
  /-- The address of the API is the same. -/
  baseUrl : c'.baseUrl = c.baseUrl
  /-- What is known of the API is the same. -/
  metadata : c'.metadata = c.metadata
  /-- The tools are the selected ones, in the same order. -/
  tools : c'.tools.map Tool.unnamed = (c.tools.filter selection.takes).map Tool.unnamed

section

variable {s s' : Settings} {d : Document} {r : RefScope} {selection : Discovery} {o : Offer}
  {t : Tool} {offers : List Offer} {drafts : List Tool}

/-! ### Selected operations -/

/-- Settings that select no more offer what they select of the other ones. -/
theorem Narrows.offersOf_eq (h : Narrows s' s d) :
  offersOf ⟨d.root⟩ s'.discovery d.paths =
    (offersOf ⟨d.root⟩ s.discovery d.paths).filter fun o => s'.discovery.selects o.method o.path
  := by
  rw [offersOf, offersOf, List.filter_flatMap]
  apply List.flatMap_congr
  rintro ⟨path, ref⟩ hp
  cases hi : RefScope.resolve ⟨d.root⟩ PathItem.decode? ref with
  | error e => rfl
  | ok item =>
      dsimp only
      rw [offersOfItem, offersOfItem, selectedOperations, selectedOperations, List.filter_map,
        List.filter_filter]
      congr 1
      apply List.filter_congr
      rintro ⟨method, op⟩ ho
      cases hs : s'.discovery.selects method path with
      | false => simp [hs]
      | true =>
          have hop : item.operation method = some op := by
            apply (mem_selectedOperations.mp (List.mem_filter.mpr ⟨ho, hs⟩)).1
          have hsel : Selected s' d path item method op := ⟨⟨ref, hp, hi⟩, hop, hs⟩
          simp [hs, (h.selected hsel).selects]

/-- No path fails for settings that select no more than others for which the document is
acceptable. -/
theorem Narrows.not_pathFails (h : Narrows s' s d) (ha : Acceptable s d)
    {p : String × RefOr PathItem} (hp : p ∈ d.paths) (e : ConvertError) :
  ¬ PathFails ⟨d.root⟩ s'.discovery p e
  := by
  intro he
  cases he with
  | pathItem hi =>
      obtain ⟨item, hi'⟩ := ha.pathItems _ hp
      rw [hi] at hi'
      cases hi'
  | method hi first =>
      obtain ⟨method, -, hm⟩ := first.exists_mem
      obtain ⟨ho, hs, ⟨hc⟩⟩ := hm
      have hsel : Selected s' d _ _ method _ := ⟨⟨_, hp, hi⟩, ho, hs⟩
      obtain ⟨q, hq, e', he'⟩ := (h.selected hsel).pathFails hc
      apply ha.not_pathFails hq he'

/-- An acceptable document is refused for settings that select no more if they select
nothing. -/
theorem Narrows.rejection_iff (h : Narrows s' s d) (ha : Acceptable s d) {e : ConvertError} :
  Rejection s' d e ↔
    e = .invalid .nothingSelected ∧ ¬ ∃ path item method op, Selected s' d path item method op
  := by
  have passed : ∀ p ∈ d.paths, ∀ e, ¬ PathFails ⟨d.root⟩ s'.discovery p e := by
    intro p hp
    apply h.not_pathFails ha hp
  rw [ApiIntake.rejection_iff ha.title ha.paths]
  constructor
  · rintro (first | ⟨-, hs, rfl⟩)
    · cases FirstFails.forall_not_iff.mp passed e first
    · use rfl
  · rintro ⟨rfl, hs⟩
    right
    use passed

/-! ### Their tools -/

/-- The draft for an operation is taken if the operation is selected. -/
theorem takes_of_draft (h : o.draft r = .ok t) :
  selection.takes t = selection.selects o.method o.path
  := by
  obtain ⟨-, hm, hp⟩ := of_draft h
  rw [Discovery.takes, hm, hp, Bool.eq_iff_iff, List.any_eq_true]
  constructor
  · rintro ⟨m, -, hm⟩
    obtain ⟨hm, hs⟩ := Bool.and_eq_true_iff.mp hm
    rw [← Method.upper_injective (of_decide_eq_true hm)]
    apply hs
  · intro hs
    use o.method, o.method.mem_all
    rw [hs, decide_eq_true rfl]
    rfl

/-- The drafts for the selected ones of some operations are the drafts that are taken. -/
theorem drafts_filter (h : List.Forall₂ (fun o t => o.draft r = .ok t) offers drafts) :
  List.Forall₂ (fun o t => o.draft r = .ok t)
    (offers.filter fun o => selection.selects o.method o.path) (drafts.filter selection.takes)
  := by
  apply List.rel_filter _ h
  intro o t ht
  change _ ↔ selection.takes t = true
  rw [takes_of_draft ht]

/-- Operations have no other drafts. -/
theorem drafts_unique {drafts' : List Tool}
    (h : List.Forall₂ (fun o t => o.draft r = .ok t) offers drafts)
    (h' : List.Forall₂ (fun o t => o.draft r = .ok t) offers drafts') :
  drafts = drafts'
  := by
  apply List.right_unique_forall₂' _ h h'
  intro o t t' ht ht'
  rw [ht] at ht'
  apply Except.ok.inj ht'

/-- Whether a tool is taken does not hang on its name, so that the tools that are taken of
some that have been named are, apart from their names, those that have not. -/
theorem map_unnamed_filter_named (taken : List String) :
  ((named taken drafts).filter selection.takes).map Tool.unnamed =
    (drafts.filter selection.takes).map Tool.unnamed
  := by
  have hp : selection.takes = selection.takes ∘ Tool.unnamed := rfl
  rw [hp, ← List.filter_map, ← List.filter_map, map_named fun t name => rfl]

end

/-! ### Both conversions -/

section

variable {s s' : Settings} {destination : Destination} {d : Document} {hash : String}
  {c c' : ServerConfig} {bytes : List UInt8}

/-- By settings that select no more, a document is converted to the selected part; and if
the names of all operations differ, its tools keep their names. -/
theorem Narrows.isPart (hn : Narrows s' s d)
    (h : convertDocument s destination d hash = .ok c)
    (h' : convertDocument s' destination d hash = .ok c') :
  IsPart s'.discovery c' c ∧
    (((offersOf ⟨d.root⟩ s.discovery d.paths).map Offer.base).Nodup →
      c'.tools = c.tools.filter s'.discovery.takes)
  := by
  obtain ⟨drafts, hd, rfl⟩ := of_convertDocument h
  obtain ⟨drafts', hd', rfl⟩ := of_convertDocument h'
  rw [hn.offersOf_eq] at hd'
  obtain rfl := drafts_unique (drafts_filter hd) hd'
  have hplace : s'.place destination = s.place destination := by
    funext name
    rw [Settings.place, Settings.place, hn.tenant]
  constructor
  · constructor
    · rfl
    · rw [configWith, configWith, hplace]
    · rw [configWith, configWith, hplace]
    · rfl
    · rfl
    · change (named [] _).map Tool.unnamed = ((named [] _).filter _).map Tool.unnamed
      rw [map_named fun t name => rfl, map_unnamed_filter_named]
  · intro hnames
    rw [← map_drafts (fun o t ht => (of_draft ht).1) hd] at hnames
    have hkeep {l : List Tool} (hl : (l.map (·.name)).Nodup) : named [] l = l := by
      apply named_of_nodup
      apply hl
    change named [] _ = (named [] _).filter _
    rw [hkeep hnames, hkeep]
    apply List.Nodup.sublist (List.filter_sublist.map _) hnames

/-- If bytes are converted, then by settings that select no more they are refused because
nothing is selected, exactly if that is so, or else converted to the selected part.  If the
names of all operations differ, its tools keep their names. -/
theorem convert_of_narrows (hd : readDocument bytes = .ok d) (hn : Narrows s' s d)
    (h : convert s destination bytes = .ok c) :
  (convert s' destination bytes = .error (.invalid .nothingSelected) ↔
      ¬ ∃ path item method op, Selected s' d path item method op) ∧
    ((∃ path item method op, Selected s' d path item method op) →
      ∃ c', convert s' destination bytes = .ok c' ∧ IsPart s'.discovery c' c ∧
        (((offersOf ⟨d.root⟩ s.discovery d.paths).map Offer.base).Nodup →
          c'.tools = c.tools.filter s'.discovery.takes))
  := by
  rw [convert_of_ok hd] at h ⊢
  have ha := exists_convertDocument_iff.mp ⟨c, h⟩
  constructor
  · rw [convertDocument_eq_error_iff, hn.rejection_iff ha]
    constructor
    · rintro ⟨-, hs⟩
      apply hs
    · intro hs
      use rfl
  · intro hs
    have ha' : Acceptable s' d := by
      apply acceptable_iff.mpr
      intro e he
      apply ((hn.rejection_iff ha).mp he).2 hs
    obtain ⟨c', hc'⟩ := exists_convertDocument_iff.mpr ha'
    use c', hc'
    apply hn.isPart h hc'

end

/-- Settings that leave one operation out select no more than those that leave none out. -/
theorem narrows_exceptOne (d : Document) :
  Narrows exceptOne .standard d
  := by
  constructor
  · rfl
  · rintro path item method op ⟨hf, ho, -⟩
    use hf, ho
    rfl

set_option maxRecDepth 10000 in
/-- The document with all of its operations is converted. -/
theorem convert_sharedDocument :
  ∃ c, convert .standard .byConvention sharedDocument = .ok c ∧ c.tools.length = 4
  := by
  apply map_eq_ok_iff.mp
  decide +kernel

set_option maxRecDepth 10000 in
/-- The operations of the document have different names. -/
theorem base_sharedDocument :
  ∃ d, readDocument sharedDocument = .ok d ∧
    (offersOf ⟨d.root⟩ Settings.standard.discovery d.paths).map Offer.base =
      ["get_a", "post_a", "get_b", "post_b"]
  := by
  apply map_eq_ok_iff.mp
  decide +kernel

/-- Without one operation the document is converted to a part of what it is converted to
with all of them, and the tools keep their names. -/
theorem isPart_of_sharedDocument :
  ∃ c c', convert .standard .byConvention sharedDocument = .ok c ∧
    convert exceptOne .byConvention sharedDocument = .ok c' ∧
    IsPart exceptOne.discovery c' c ∧ c'.tools = c.tools.filter exceptOne.discovery.takes
  := by
  obtain ⟨c, hc, -⟩ := convert_sharedDocument
  obtain ⟨d, hd, hbase⟩ := base_sharedDocument
  obtain ⟨hnone, hsome⟩ := convert_of_narrows hd (narrows_exceptOne d) hc
  obtain ⟨c', hc', -⟩ := map_eq_ok_iff.mp tools_of_sharedDocument
  have hs : ∃ path item method op, Selected exceptOne d path item method op := by
    by_contra hs
    rw [hnone.mpr hs] at hc'
    cases hc'
  obtain ⟨c', hc', hpart, hnames⟩ := hsome hs
  rw [hbase] at hnames
  exact ⟨c, c', hc, hc', hpart, hnames (by decide)⟩

end ApiIntake
