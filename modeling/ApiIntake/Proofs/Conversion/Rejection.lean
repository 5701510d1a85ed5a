import ApiIntake.Conversion
import ApiIntake.Proofs.Outcome
import Mathlib.Data.List.Basic
import Mathlib.Tactic.ByContra
import Mathlib.Tactic.Use

/-!
# Which documents are converted

A document is converted if it is `Acceptable`: it has a title and paths, every path item
can be looked up, some operation is selected, and the arguments of all selected operations
can be made out.  Any other is refused with the error of the first check that fails, in the
order in which `Rejection` takes them.  An operation that is not selected does not occur in
either (`convert_accepts_or_rejects`).
-/

namespace ApiIntake

open ApiIntake.OpenApi

/-! ### First failures -/

/-- The first thing of a list that fails does so with an error. -/
inductive FirstFails {α ε : Type} (fails : α → ε → Prop) : List α → ε → Prop
  /-- The thing at the head fails. -/
  | here {a : α} {l : List α} {e : ε} (h : fails a e) :
    FirstFails fails (a :: l) e
  /-- The thing at the head does not fail. -/
  | later {a : α} {l : List α} {e : ε} (passed : ∀ e, ¬ fails a e) (h : FirstFails fails l e) :
    FirstFails fails (a :: l) e

namespace FirstFails

variable {α β ε : Type} {fails : α → ε → Prop} {a : α} {l : List α} {e : ε}

/-- In a list without anything nothing fails. -/
theorem nil_iff :
  FirstFails fails [] e ↔ False
  := by
  constructor
  · rintro ⟨⟩
  · rintro ⟨⟩

/-- Behind a thing that does not fail comes the first failure of the rest. -/
theorem cons_iff :
  FirstFails fails (a :: l) e ↔ fails a e ∨ (∀ e, ¬ fails a e) ∧ FirstFails fails l e
  := by
  constructor
  · intro h
    cases h with
    | here h =>
        left
        apply h
    | later passed h =>
        right
        use passed
  · rintro (h | ⟨passed, h⟩)
    · apply here h
    · apply later passed h

/-- The first failures are the same where the same things fail with the same errors. -/
theorem congr {fails' : α → ε → Prop} (h : ∀ a e, fails a e ↔ fails' a e) :
  FirstFails fails l e ↔ FirstFails fails' l e
  := by
  have hf : fails = fails' := by
    funext a e
    apply propext (h a e)
  rw [hf]

/-- What fails first stands behind things that do not fail. -/
theorem iff_append :
  FirstFails fails l e ↔
    ∃ before a after, l = before ++ a :: after ∧ (∀ b ∈ before, ∀ e, ¬ fails b e) ∧ fails a e
  := by
  constructor
  · intro h
    induction h with
    | @here a l e h =>
        use [], a, l, rfl
        simpa using h
    | @later a l e passed _ ih =>
        obtain ⟨before, b, after, rfl, hbefore, hb⟩ := ih
        use a :: before, b, after, rfl
        simpa using ⟨⟨passed, hbefore⟩, hb⟩
  · rintro ⟨before, a, after, rfl, hbefore, ha⟩
    induction before with
    | nil => apply here ha
    | cons b before ih =>
        obtain ⟨hb, hbefore⟩ := List.forall_mem_cons.mp hbefore
        apply later hb (ih hbefore)

/-- In a list behind another one something fails first if nothing of the other one does. -/
theorem append_iff {l' : List α} :
  FirstFails fails (l ++ l') e ↔
    FirstFails fails l e ∨ (∀ e, ¬ FirstFails fails l e) ∧ FirstFails fails l' e
  := by
  induction l with
  | nil => simp [nil_iff]
  | cons a l ih =>
      simp only [List.cons_append, cons_iff, ih, not_or, not_and, forall_and]
      by_cases ha : ∃ e, fails a e
      · obtain ⟨e', ha⟩ := ha
        have hn : ¬ ∀ e, ¬ fails a e := fun h => h e' ha
        simp [hn]
      · simp [not_exists.mp ha]

/-- What fails first fails. -/
theorem exists_mem (h : FirstFails fails l e) :
  ∃ a ∈ l, fails a e
  := by
  obtain ⟨before, a, after, rfl, -, ha⟩ := iff_append.mp h
  use a, List.mem_append_right before List.mem_cons_self

/-- Something fails first if anything fails. -/
theorem exists_iff :
  (∃ e, FirstFails fails l e) ↔ ∃ a ∈ l, ∃ e, fails a e
  := by
  constructor
  · rintro ⟨e, h⟩
    obtain ⟨a, ha, h⟩ := h.exists_mem
    use a, ha, e
  · rintro ⟨a, ha, e, h⟩
    induction l with
    | nil => cases ha
    | cons b l ih =>
        by_cases hb : ∃ e, fails b e
        · obtain ⟨e', hb⟩ := hb
          use e'
          apply here hb
        · obtain rfl | ha := List.mem_cons.mp ha
          · cases hb ⟨e, h⟩
          · obtain ⟨e', h'⟩ := ih ha
            use e'
            apply later (not_exists.mp hb) h'

/-- Nothing fails if there is no first failure. -/
theorem forall_not_iff :
  (∀ a ∈ l, ∀ e, ¬ fails a e) ↔ ∀ e, ¬ FirstFails fails l e
  := by
  constructor
  · intro h e first
    obtain ⟨a, ha, e', h'⟩ := exists_iff.mp ⟨e, first⟩
    apply h a ha e' h'
  · intro h a ha e h'
    obtain ⟨e', first⟩ := exists_iff.mpr ⟨a, ha, e, h'⟩
    apply h e' first

/-- What fails first of the things that are picked from a list fails first in that list, where
only what is picked can fail. -/
theorem filterMap_iff {pick : β → Option α} {l : List β} :
  FirstFails fails (l.filterMap pick) e ↔
    FirstFails (fun b e => ∃ a, pick b = some a ∧ fails a e) l e
  := by
  induction l with
  | nil => simp [nil_iff]
  | cons b l ih =>
      rw [cons_iff, ← ih]
      cases hb : pick b with
      | none => simp [hb]
      | some a => simp [hb, cons_iff]

/-- What goes on behind a thing that may fail fails first as the whole does. -/
theorem bind_iff {γ δ : Type} {x : Except ε γ} {f : γ → Except ε δ}
    (hx : ∀ e, x = .error e ↔ fails a e)
    (hf : ∀ b, x = .ok b → (f b = .error e ↔ FirstFails fails l e)) :
  (x >>= f) = .error e ↔ FirstFails fails (a :: l) e
  := by
  rw [cons_iff, ← hx]
  cases x with
  | error e' =>
      have hn : ¬ ∀ e, ¬ fails a e := by
        intro h
        apply h e' ((hx e').mp rfl)
      constructor
      · rintro ⟨⟩
        left
        rfl
      · rintro (⟨⟨⟩⟩ | ⟨h, -⟩)
        · rfl
        · cases hn h
  | ok b =>
      constructor
      · intro h
        right
        constructor
        · intro e he
          cases (hx e).mpr he
        · apply (hf b rfl).mp h
      · rintro (⟨⟨⟩⟩ | ⟨-, h⟩)
        apply (hf b rfl).mpr h

/-- What is made of two things that may fail fails as the first one does, or else as the second
one does. -/
theorem bind_append_iff {γ δ ζ : Type} {x : Except ε γ} {y : Except ε δ} {f : γ → δ → ζ}
    {l' : List α} (hx : ∀ e, x = .error e ↔ FirstFails fails l e)
    (hy : ∀ e, y = .error e ↔ FirstFails fails l' e) :
  (x >>= fun a => y >>= fun b => pure (f a b)) = .error e ↔ FirstFails fails (l ++ l') e
  := by
  have hrest (a : γ) : (y >>= fun b => pure (f a b)) = .error e ↔ y = .error e :=
    bind_pure_eq_error_iff
  simp only [bind_eq_error_iff (x := x), hrest, append_iff, ← hx, ← hy, exists_and_right,
    exists_eq_ok_iff, ne_eq]

end FirstFails

/-! ### Failing operations and paths -/

section

variable {r : RefScope} {selection : Discovery} {path : String} {common : List (RefOr Parameter)}
  {item : PathItem} {method : Method} {op : Operation} {taken : List String} {tools : List Tool}
  {e : ConvertError}

/-- An operation fails if it has no arguments that a tool could take. -/
inductive OperationFails (r : RefScope) (path : String) (common : List (RefOr Parameter)) :
    Method × Operation → ConvertError → Prop
  /-- The error carries the label of the operation. -/
  | arguments {method : Method} {op : Operation} {e : ArgumentError}
    (h : argumentsOfOperation r common op = .error e) :
    OperationFails r path common (method, op) (.operation (operationLabel method path) e)

/-- A method of a path item fails if it has an operation, which is selected and fails. -/
inductive MethodFails (r : RefScope) (selection : Discovery) (path : String) (item : PathItem) :
    Method → ConvertError → Prop
  /-- The error is that of the operation. -/
  | operation {method : Method} {op : Operation} {e : ConvertError}
    (offered : item.operation method = some op) (selected : selection.selects method path = true)
    (h : OperationFails r path item.parameters (method, op) e) :
    MethodFails r selection path item method e

/-- A path fails if its path item cannot be looked up, and else with the first of the methods
that fails. -/
inductive PathFails (r : RefScope) (selection : Discovery) :
    String × RefOr PathItem → ConvertError → Prop
  /-- The path item cannot be looked up. -/
  | pathItem {path : String} {ref : RefOr PathItem} {e : RefError}
    (h : r.resolve PathItem.decode? ref = .error e) :
    PathFails r selection (path, ref) (.pathItem path e)
  /-- A method fails. -/
  | method {path : String} {ref : RefOr PathItem} {item : PathItem} {e : ConvertError}
    (h : r.resolve PathItem.decode? ref = .ok item)
    (first : FirstFails (MethodFails r selection path item) Method.all e) :
    PathFails r selection (path, ref) e

/-- A tool is made of an operation unless the operation fails. -/
theorem toolOf_eq_error_iff :
  toolOf r taken path common method op = .error e ↔ OperationFails r path common (method, op) e
  := by
  rw [toolOf]
  cases h : argumentsOfOperation r common op with
  | error cause =>
      constructor
      · rintro ⟨⟩
        apply OperationFails.arguments h
      · rintro ⟨h'⟩
        rw [h] at h'
        cases h'
        rfl
  | ok args =>
      constructor
      · rintro ⟨⟩
      · rintro ⟨h'⟩
        rw [h] at h'
        cases h'

/-- Tools are made of operations unless one fails, and then the first that fails decides. -/
theorem addTools_eq_error_iff {ops : List (Method × Operation)} :
  addTools r path common tools ops = .error e ↔ FirstFails (OperationFails r path common) ops e
  := by
  induction ops generalizing tools with
  | nil =>
      rw [addTools, FirstFails.nil_iff]
      constructor
      · rintro ⟨⟩
      · rintro ⟨⟩
  | cons o rest ih =>
      apply FirstFails.bind_iff
      · intro e
        apply toolOf_eq_error_iff
      · intro tool _
        apply ih

/-- One tool is made of each operation. -/
theorem length_of_addTools {ops : List (Method × Operation)} {tools' : List Tool}
    (h : addTools r path common tools ops = .ok tools') :
  tools'.length = tools.length + ops.length
  := by
  induction ops generalizing tools with
  | nil =>
      cases h
      rfl
  | cons o rest ih =>
      obtain ⟨method, op⟩ := o
      rw [addTools] at h
      cases ht : toolOf r (tools.map (·.name)) path common method op with
      | error e =>
          rw [ht] at h
          cases h
      | ok tool =>
          rw [ht] at h
          rw [ih h, List.length_append, List.length_singleton, List.length_cons]
          omega

/-- No method is left out. -/
theorem OpenApi.Method.mem_all (method : Method) :
  method ∈ Method.all
  := by
  cases method <;> decide

/-- The selected operations of a path item are those of its methods that are selected. -/
theorem mem_selectedOperations :
  (method, op) ∈ selectedOperations selection path item ↔
    item.operation method = some op ∧ selection.selects method path = true
  := by
  rw [selectedOperations, List.mem_filter, PathItem.operations, List.mem_filterMap]
  constructor
  · rintro ⟨⟨m, -, h⟩, hs⟩
    obtain ⟨op', ho, ⟨⟩⟩ := Option.map_eq_some_iff.mp h
    use ho
  · rintro ⟨ho, hs⟩
    constructor
    · use method, method.mem_all
      rw [ho]
      rfl
    · apply hs

/-- The first of the selected operations that fails is that of the first method that fails. -/
theorem firstFails_selectedOperations :
  FirstFails (OperationFails r path item.parameters) (selectedOperations selection path item) e ↔
    FirstFails (MethodFails r selection path item) Method.all e
  := by
  rw [selectedOperations, PathItem.operations, List.filter_filterMap, FirstFails.filterMap_iff]
  apply FirstFails.congr
  intro m e
  constructor
  · rintro ⟨o, ho, h⟩
    obtain ⟨ho, hs⟩ := Option.filter_eq_some_iff.mp ho
    obtain ⟨op, hop, rfl⟩ := Option.map_eq_some_iff.mp ho
    apply MethodFails.operation hop hs h
  · intro h
    cases h with
    | @operation op _ hop hs h =>
        use (m, op)
        constructor
        · rw [hop]
          apply Option.filter_eq_some_iff.mpr
          use rfl
        · apply h

/-- The tools for the selected operations of a path, behind the tools that are there. -/
def toolsOfPath (r : RefScope) (selection : Discovery) (tools : List Tool)
    (p : String × RefOr PathItem) : Except ConvertError (List Tool) := do
  let item ← (r.resolve PathItem.decode? p.2).mapError (.pathItem p.1)
  addTools r p.1 item.parameters tools (selectedOperations selection p.1 item)

/-- The tools for paths are those of the first path and then those of the others. -/
theorem toolsOfPaths_cons (p : String × RefOr PathItem) (rest : List (String × RefOr PathItem)) :
  toolsOfPaths r selection tools (p :: rest) =
    toolsOfPath r selection tools p >>= fun tools => toolsOfPaths r selection tools rest
  := by
  rw [toolsOfPaths, toolsOfPath]
  cases r.resolve PathItem.decode? p.2 with
  | error e => rfl
  | ok item => rfl

/-- The tools for a path are made unless the path fails. -/
theorem toolsOfPath_eq_error_iff {p : String × RefOr PathItem} :
  toolsOfPath r selection tools p = .error e ↔ PathFails r selection p e
  := by
  obtain ⟨path, ref⟩ := p
  rw [toolsOfPath]
  cases h : r.resolve PathItem.decode? ref with
  | error cause =>
      constructor
      · rintro ⟨⟩
        apply PathFails.pathItem h
      · intro hp
        cases hp with
        | pathItem h' =>
            rw [h] at h'
            cases h'
            rfl
        | method h' =>
            rw [h] at h'
            cases h'
  | ok item =>
      constructor
      · intro he
        apply PathFails.method h
        apply firstFails_selectedOperations.mp
        apply addTools_eq_error_iff.mp he
      · intro hp
        cases hp with
        | pathItem h' =>
            rw [h] at h'
            cases h'
        | method h' first =>
            rw [h] at h'
            cases h'
            apply addTools_eq_error_iff.mpr
            apply firstFails_selectedOperations.mpr first

/-- One tool is made of each operation of a path that is selected. -/
theorem of_toolsOfPath {p : String × RefOr PathItem} {tools' : List Tool}
    (h : toolsOfPath r selection tools p = .ok tools') :
  ∃ item, r.resolve PathItem.decode? p.2 = .ok item ∧
    tools'.length = tools.length + (selectedOperations selection p.1 item).length
  := by
  rw [toolsOfPath] at h
  cases hi : r.resolve PathItem.decode? p.2 with
  | error e =>
      rw [hi] at h
      cases h
  | ok item =>
      rw [hi] at h
      use item, rfl
      apply length_of_addTools h

/-- The tools for paths are made unless one fails, and then the first that fails decides. -/
theorem toolsOfPaths_eq_error_iff {paths : List (String × RefOr PathItem)} :
  toolsOfPaths r selection tools paths = .error e ↔ FirstFails (PathFails r selection) paths e
  := by
  induction paths generalizing tools with
  | nil =>
      rw [toolsOfPaths, FirstFails.nil_iff]
      constructor
      · rintro ⟨⟩
      · rintro ⟨⟩
  | cons p rest ih =>
      rw [toolsOfPaths_cons]
      apply FirstFails.bind_iff
      · intro e
        apply toolsOfPath_eq_error_iff
      · intro tools' _
        apply ih

/-- There are no tools for paths without selected operations, and there are some for others. -/
theorem toolsOfPaths_eq_nil_iff {paths : List (String × RefOr PathItem)} {tools' : List Tool}
    (h : toolsOfPaths r selection tools paths = .ok tools') :
  tools' = [] ↔
    tools = [] ∧ ∀ p ∈ paths, ∀ item, r.resolve PathItem.decode? p.2 = .ok item →
      selectedOperations selection p.1 item = []
  := by
  induction paths generalizing tools with
  | nil =>
      cases h
      simp
  | cons p rest ih =>
      rw [toolsOfPaths_cons] at h
      cases hp : toolsOfPath r selection tools p with
      | error e =>
          rw [hp] at h
          cases h
      | ok tools₁ =>
          rw [hp] at h
          obtain ⟨item, hi, hl⟩ := of_toolsOfPath hp
          have hnil : tools₁ = [] ↔ tools = [] ∧ selectedOperations selection p.1 item = [] := by
            simp only [← List.length_eq_zero_iff, hl]
            omega
          have hitem : (∀ item', r.resolve PathItem.decode? p.2 = .ok item' →
              selectedOperations selection p.1 item' = []) ↔
                selectedOperations selection p.1 item = [] := by
            constructor
            · intro hs
              apply hs item hi
            · intro hs item' hi'
              rw [hi] at hi'
              cases hi'
              apply hs
          rw [ih h, List.forall_mem_cons, hnil, hitem, and_assoc]

end

/-! ### Acceptance and rejection -/

/-- An operation of a document that is selected. -/
structure Selected (s : Settings) (d : Document) (path : String) (item : PathItem)
    (method : Method) (op : Operation) : Prop where
  /-- The path has the path item. -/
  found : ∃ ref, (path, ref) ∈ d.paths ∧ RefScope.resolve ⟨d.root⟩ PathItem.decode? ref = .ok item
  /-- The path item has the operation. -/
  offered : item.operation method = some op
  /-- The settings select it. -/
  selects : s.discovery.selects method path = true

/-- A document that is converted. -/
structure Acceptable (s : Settings) (d : Document) : Prop where
  /-- The title is more than white space. -/
  title : Text.trim d.title ≠ ""
  /-- There is a path. -/
  paths : d.paths ≠ []
  /-- Every path item can be looked up. -/
  pathItems : ∀ p ∈ d.paths, ∃ item, RefScope.resolve ⟨d.root⟩ PathItem.decode? p.2 = .ok item
  /-- An operation is selected. -/
  selected : ∃ path item method op, Selected s d path item method op
  /-- Every operation that is selected has arguments that a tool can take. -/
  arguments : ∀ {path item method op}, Selected s d path item method op →
    ∃ args, argumentsOfOperation ⟨d.root⟩ item.parameters op = .ok args

/-- The error with which a document is refused: that of the first check that fails. -/
inductive Rejection (s : Settings) (d : Document) : ConvertError → Prop
  /-- The title is first. -/
  | blankTitle (h : Text.trim d.title = "") :
    Rejection s d (.invalid .blankTitle)
  /-- Whether there are any paths comes next. -/
  | noPaths (title : Text.trim d.title ≠ "") (h : d.paths = []) :
    Rejection s d (.invalid .noPaths)
  /-- Then come the paths, in the order of the document. -/
  | path {e : ConvertError} (title : Text.trim d.title ≠ "")
    (first : FirstFails (PathFails ⟨d.root⟩ s.discovery) d.paths e) :
    Rejection s d e
  /-- Whether any operation is selected comes last. -/
  | nothingSelected (title : Text.trim d.title ≠ "") (paths : d.paths ≠ [])
    (passed : ∀ p ∈ d.paths, ∀ e, ¬ PathFails ⟨d.root⟩ s.discovery p e)
    (h : ¬ ∃ path item method op, Selected s d path item method op) :
    Rejection s d (.invalid .nothingSelected)

section

variable {s : Settings} {destination : Destination} {d : Document} {hash : String}
  {e : ConvertError}

/-- A selected operation that fails makes its path fail. -/
theorem Selected.pathFails {path : String} {item : PathItem} {method : Method} {op : Operation}
    (h : Selected s d path item method op) {cause : ArgumentError}
    (hc : argumentsOfOperation ⟨d.root⟩ item.parameters op = .error cause) :
  ∃ p ∈ d.paths, ∃ e, PathFails ⟨d.root⟩ s.discovery p e
  := by
  obtain ⟨ref, hp, hi⟩ := h.found
  have hf := MethodFails.operation h.offered h.selects (.arguments hc)
  obtain ⟨e, he⟩ := FirstFails.exists_iff.mpr ⟨method, method.mem_all, _, hf⟩
  use (path, ref), hp, e
  apply PathFails.method hi he

/-- No path of an acceptable document fails. -/
theorem Acceptable.not_pathFails (h : Acceptable s d) {path : String} {ref : RefOr PathItem}
    (hp : (path, ref) ∈ d.paths) :
  ¬ PathFails ⟨d.root⟩ s.discovery (path, ref) e
  := by
  intro he
  cases he with
  | pathItem hi =>
      obtain ⟨item, hi'⟩ := h.pathItems _ hp
      rw [hi] at hi'
      cases hi'
  | method hi first =>
      obtain ⟨method, -, _, hm⟩ := FirstFails.exists_iff.mp ⟨e, first⟩
      obtain ⟨ho, hs, ⟨hc⟩⟩ := hm
      obtain ⟨args, ha⟩ := h.arguments ⟨⟨ref, hp, hi⟩, ho, hs⟩
      rw [hc] at ha
      cases ha

/-- Without tools for its paths a document has no selected operation. -/
theorem toolsOfPaths_eq_nil_iff_selected {tools : List Tool}
    (h : toolsOfPaths ⟨d.root⟩ s.discovery [] d.paths = .ok tools) :
  tools = [] ↔ ¬ ∃ path item method op, Selected s d path item method op
  := by
  rw [toolsOfPaths_eq_nil_iff h]
  constructor
  · rintro ⟨-, hs⟩ ⟨path, item, method, op, ⟨ref, hp, hi⟩, ho, hm⟩
    have hn := hs (path, ref) hp item hi
    have hmem := mem_selectedOperations.mpr ⟨ho, hm⟩
    rw [hn] at hmem
    cases hmem
  · intro hn
    use rfl
    rintro ⟨path, ref⟩ hp item hi
    apply List.eq_nil_iff_forall_not_mem.mpr
    rintro ⟨method, op⟩ hmem
    obtain ⟨ho, hm⟩ := mem_selectedOperations.mp hmem
    apply hn
    exact ⟨path, item, method, op, ⟨ref, hp, hi⟩, ho, hm⟩

/-- A document with a blank title is refused for that. -/
theorem rejection_iff_of_title (title : Text.trim d.title = "") :
  Rejection s d e ↔ e = .invalid .blankTitle
  := by
  constructor
  · intro h
    cases h with
    | blankTitle => rfl
    | noPaths ht => cases ht title
    | path ht => cases ht title
    | nothingSelected ht => cases ht title
  · rintro rfl
    apply Rejection.blankTitle title

/-- A document with a title and no paths is refused for that. -/
theorem rejection_iff_of_paths (title : Text.trim d.title ≠ "") (paths : d.paths = []) :
  Rejection s d e ↔ e = .invalid .noPaths
  := by
  constructor
  · intro h
    cases h with
    | blankTitle ht => cases title ht
    | noPaths => rfl
    | path _ first =>
        rw [paths] at first
        cases first
    | nothingSelected _ hp => cases hp paths
  · rintro rfl
    apply Rejection.noPaths title paths

/-- If a document has a title and paths, the first path that fails decides, and if none
fails, whether anything is selected. -/
theorem rejection_iff (title : Text.trim d.title ≠ "") (paths : d.paths ≠ []) :
  Rejection s d e ↔
    FirstFails (PathFails ⟨d.root⟩ s.discovery) d.paths e ∨
      (∀ p ∈ d.paths, ∀ e, ¬ PathFails ⟨d.root⟩ s.discovery p e) ∧
        (¬ ∃ path item method op, Selected s d path item method op) ∧
          e = .invalid .nothingSelected
  := by
  constructor
  · intro h
    cases h with
    | blankTitle ht => cases title ht
    | noPaths _ hp => cases paths hp
    | path _ first =>
        left
        apply first
    | nothingSelected _ _ passed hs =>
        right
        use passed, hs
  · rintro (first | ⟨passed, hs, rfl⟩)
    · apply Rejection.path title first
    · apply Rejection.nothingSelected title paths passed hs

/-- A document is refused with the error of its first check that fails. -/
theorem convertDocument_eq_error_iff :
  convertDocument s destination d hash = .error e ↔ Rejection s d e
  := by
  rw [convertDocument]
  by_cases title : Text.trim d.title = ""
  · rw [if_pos (String.isEmpty_iff.mpr title), rejection_iff_of_title title, Except.error.injEq,
      eq_comm]
  rw [if_neg (mt String.isEmpty_iff.mp title)]
  by_cases paths : d.paths = []
  · rw [if_pos (List.isEmpty_iff.mpr paths), rejection_iff_of_paths title paths,
      Except.error.injEq, eq_comm]
  have hf (e : ConvertError) : toolsOfPaths ⟨d.root⟩ s.discovery [] d.paths = .error e ↔
      FirstFails (PathFails ⟨d.root⟩ s.discovery) d.paths e := toolsOfPaths_eq_error_iff
  rw [if_neg (mt List.isEmpty_iff.mp paths), rejection_iff title paths, FirstFails.forall_not_iff]
  simp only [← hf]
  cases h : toolsOfPaths ⟨d.root⟩ s.discovery [] d.paths with
  | error e' =>
      constructor
      · rintro ⟨⟩
        left
        rfl
      · rintro (⟨⟨⟩⟩ | ⟨passed, -⟩)
        · rfl
        · cases passed e' rfl
  | ok tools =>
      have hn := toolsOfPaths_eq_nil_iff_selected h
      simp only [bind, Except.bind]
      by_cases ht : tools = []
      · rw [if_pos (List.isEmpty_iff.mpr ht)]
        constructor
        · rintro ⟨⟩
          right
          constructor
          · rintro e ⟨⟩
          · use hn.mp ht
        · rintro (⟨⟨⟩⟩ | ⟨-, -, rfl⟩)
          rfl
      · rw [if_neg (mt List.isEmpty_iff.mp ht)]
        constructor
        · rintro ⟨⟩
        · rintro (⟨⟨⟩⟩ | ⟨-, hs, -⟩)
          cases ht (hn.mpr hs)

/-- A document is acceptable if it is not refused. -/
theorem acceptable_iff :
  Acceptable s d ↔ ∀ e, ¬ Rejection s d e
  := by
  constructor
  · intro ha e hr
    cases hr with
    | blankTitle h => apply ha.title h
    | noPaths _ h => apply ha.paths h
    | path _ first =>
        obtain ⟨⟨path, ref⟩, hp, e, he⟩ := FirstFails.exists_iff.mp ⟨e, first⟩
        apply ha.not_pathFails hp he
    | nothingSelected _ _ _ h => apply h ha.selected
  · intro h
    have title : Text.trim d.title ≠ "" := by
      intro ht
      apply h _ (.blankTitle ht)
    have paths : d.paths ≠ [] := by
      intro hp
      apply h _ (.noPaths title hp)
    have passed : ∀ p ∈ d.paths, ∀ e, ¬ PathFails ⟨d.root⟩ s.discovery p e := by
      rw [FirstFails.forall_not_iff]
      intro e first
      apply h e (.path title first)
    constructor
    · apply title
    · apply paths
    · rintro ⟨path, ref⟩ hp
      cases hi : RefScope.resolve ⟨d.root⟩ PathItem.decode? ref with
      | error e => cases passed _ hp _ (.pathItem hi)
      | ok item => use item
    · by_contra hs
      apply h _ (.nothingSelected title paths passed hs)
    · intro path item method op hs
      cases hc : argumentsOfOperation ⟨d.root⟩ item.parameters op with
      | error cause =>
          obtain ⟨p, hp, e, he⟩ := hs.pathFails hc
          cases passed p hp e he
      | ok args => use args

/-- A document that is refused for an operation has this operation, and it is selected. -/
theorem Rejection.exists_selected {label : String} {cause : ArgumentError}
    (h : Rejection s d (.operation label cause)) :
  ∃ path item method op, Selected s d path item method op ∧
    label = operationLabel method path ∧
    argumentsOfOperation ⟨d.root⟩ item.parameters op = .error cause
  := by
  cases h with
  | path _ first =>
      obtain ⟨⟨path, ref⟩, hp, hf⟩ := first.exists_mem
      cases hf with
      | @method _ _ item _ hi first =>
          obtain ⟨method, -, hm⟩ := first.exists_mem
          cases hm with
          | @operation op _ ho hs hf =>
              cases hf with
              | arguments hc =>
                  exact ⟨path, item, method, op, ⟨⟨ref, hp, hi⟩, ho, hs⟩, rfl, hc⟩

/-- A document that is refused for a path item has its path, and the path item cannot be
looked up. -/
theorem Rejection.exists_path {path : String} {cause : RefError}
    (h : Rejection s d (.pathItem path cause)) :
  ∃ ref, (path, ref) ∈ d.paths ∧
    RefScope.resolve ⟨d.root⟩ PathItem.decode? ref = .error cause
  := by
  cases h with
  | path _ first =>
      obtain ⟨⟨path, ref⟩, hp, hf⟩ := first.exists_mem
      cases hf with
      | pathItem h => use ref
      | method _ first =>
          obtain ⟨method, -, hm⟩ := first.exists_mem
          cases hm with
          | operation _ _ hf => cases hf

end

/-! ### Error texts -/

/-- A text contains another one. -/
def Occurs (part text : String) : Prop := ∃ before after, text = before ++ part ++ after

namespace Occurs

variable {part text : String}

/-- A text contains itself. -/
theorem refl (part : String) :
  Occurs part part
  := by
  exact ⟨"", "", by rw [String.empty_append, String.append_empty]⟩

/-- What a text contains is still there with another text before it. -/
theorem prepend (h : Occurs part text) (first : String) :
  Occurs part (first ++ text)
  := by
  obtain ⟨before, after, rfl⟩ := h
  exact ⟨first ++ before, after, by simp only [String.append_assoc]⟩

/-- What a text contains is still there with another text behind it. -/
theorem append (h : Occurs part text) (last : String) :
  Occurs part (text ++ last)
  := by
  obtain ⟨before, after, rfl⟩ := h
  exact ⟨before, after ++ last, by simp only [String.append_assoc]⟩

end Occurs

namespace ConvertError

/-- What occurs in the place of a construct occurs in the text that says that the construct
is not supported. -/
theorem occurs_unsupportedText {part location : String} (h : Occurs part location)
    (reason : String) :
  Occurs part (unsupportedText location reason)
  := by
  change Occurs part (_ ++ location ++ _ ++ reason)
  apply ((h.prepend _).append _).append

/-- What occurs in the context of a reference occurs in the text of its error. -/
theorem occurs_messageAt {part context : String} (h : Occurs part context) (e : RefError) :
  Occurs part (RefError.messageAt context e)
  := by
  obtain ⟨fault, target⟩ := e
  cases fault with
  | external =>
      apply occurs_unsupportedText (h.append target)
  | notPointer | dangling | wrongKind | cyclic =>
      change Occurs part (_ ++ context ++ RefError.reason _)
      apply (h.prepend _).append

/-- The label of an operation occurs in the text of its error. -/
theorem occurs_label (label : String) (e : ArgumentError) :
  Occurs label (operation label e).message
  := by
  have h := Occurs.refl label
  cases e with
  | reference e =>
      apply occurs_messageAt (h.append _)
  | cookie name =>
      apply occurs_unsupportedText
      apply ((h.append _).append _).append
  | repeated name =>
      change Occurs label (_ ++ label)
      apply h.prepend
  | bodyCollision name =>
      change Occurs label (_ ++ label)
      apply h.prepend

/-- A path occurs in the text of the error of its path item. -/
theorem occurs_path (path : String) (e : RefError) :
  Occurs path (pathItem path e).message
  := by
  change Occurs path (_ ++ path ++ _ ++ _)
  apply (((Occurs.refl path).prepend _).append _).append

/-- An error of an operation is one of a reference, of what is not supported or of
parameters with one name. -/
theorem errorClass_operation (label : String) (e : ArgumentError) :
  (operation label e).errorClass ∈
    [ErrorClass.reference, .unsupported, .parameterCollision]
  := by
  cases e with
  | reference e =>
      obtain ⟨fault, target⟩ := e
      cases fault with
      | external => simp [errorClass, RefError.errorClass]
      | notPointer | dangling | wrongKind | cyclic => simp [errorClass, RefError.errorClass]
  | cookie name => simp [errorClass]
  | repeated name => simp [errorClass]
  | bodyCollision name => simp [errorClass]

end ConvertError

/-! ### Reading -/

/-- Whether an error is one of a path or of an operation on it. -/
def ConvertError.ofPath : ConvertError → Bool
  | .pathItem .. | .operation .. => true
  | _ => false

/-- What keeps bytes from being a document is no error of a path. -/
theorem ofPath_of_readDocument {bytes : List UInt8} {e : ConvertError}
    (h : readDocument bytes = .error e) :
  e.ofPath = false
  := by
  have hversion : ∀ root, checkVersion root = .error e → e.ofPath = false := by
    intro root h
    rw [checkVersion] at h
    grind [ConvertError.ofPath]
  rw [readDocument] at h
  split at h
  · cases h
    rfl
  dsimp only at h
  split at h
  · obtain ⟨⟨⟩⟩ | ⟨text, -, h⟩ := bind_eq_error_iff.mp h
    split at h
    · rename_i v _
      obtain hr | ⟨root, -, h⟩ := bind_eq_error_iff.mp h
      · cases hv : v.check with
        | error f =>
            rw [hv] at hr
            cases hr
            rfl
        | ok _ =>
            rw [hv] at hr
            cases hr
      · split at h
        · obtain h | ⟨_, -, h⟩ := bind_eq_error_iff.mp h
          · apply hversion _ h
          · split at h
            · cases h
            · cases h
              rfl
        · cases h
          rfl
    · cases h
      rfl
  · cases h
    rfl

/-! ### The conversion -/

/-- A document is converted if it is acceptable. -/
theorem exists_convertDocument_iff {s : Settings} {destination : Destination} {d : Document}
    {hash : String} :
  (∃ c, convertDocument s destination d hash = .ok c) ↔ Acceptable s d
  := by
  have hf (e : ConvertError) : convertDocument s destination d hash = .error e ↔
      Rejection s d e := convertDocument_eq_error_iff
  simp only [acceptable_iff, ← hf]
  cases convertDocument s destination d hash with
  | error e =>
      constructor
      · rintro ⟨c, ⟨⟩⟩
      · intro h
        cases h e rfl
  | ok c =>
      constructor
      · rintro - e ⟨⟩
      · intro _
        use c

/-- Bytes are converted if they hold an acceptable document. -/
theorem exists_convert_iff {s : Settings} {destination : Destination} {bytes : List UInt8} :
  (∃ c, convert s destination bytes = .ok c) ↔
    ∃ d, readDocument bytes = .ok d ∧ Acceptable s d
  := by
  cases hd : readDocument bytes with
  | error e =>
      rw [convert_of_error hd]
      constructor
      · rintro ⟨c, ⟨⟩⟩
      · rintro ⟨d, ⟨⟩, -⟩
  | ok d =>
      rw [convert_of_ok hd, exists_convertDocument_iff]
      constructor
      · intro h
        use d
      · rintro ⟨d, ⟨⟩, h⟩
        apply h

/-- Bytes are refused for what keeps them from being a document, or else with the error of
the first check that fails. -/
theorem convert_eq_error_iff {s : Settings} {destination : Destination} {bytes : List UInt8}
    {e : ConvertError} :
  convert s destination bytes = .error e ↔
    readDocument bytes = .error e ∨ ∃ d, readDocument bytes = .ok d ∧ Rejection s d e
  := by
  cases hd : readDocument bytes with
  | error e' =>
      rw [convert_of_error hd]
      constructor
      · rintro ⟨⟩
        left
        rfl
      · rintro (⟨⟨⟩⟩ | ⟨d, ⟨⟩, -⟩)
        rfl
  | ok d =>
      rw [convert_of_ok hd, convertDocument_eq_error_iff]
      constructor
      · intro h
        right
        use d
      · rintro (⟨⟨⟩⟩ | ⟨d, ⟨⟩, h⟩)
        apply h

/-- Bytes are converted if they hold an acceptable document.  All others are refused: for
what keeps them from being a document, or with the error of the first check that fails.  An
error of an operation names it, and the operation is selected; an error of a path item names
its path. -/
theorem convert_accepts_or_rejects (s : Settings) (destination : Destination)
    (bytes : List UInt8) :
  ((∃ c, convert s destination bytes = .ok c) ↔
      ∃ d, readDocument bytes = .ok d ∧ Acceptable s d) ∧
    (∀ e, convert s destination bytes = .error e ↔
      readDocument bytes = .error e ∨ ∃ d, readDocument bytes = .ok d ∧ Rejection s d e) ∧
    (∀ d label cause, Rejection s d (.operation label cause) →
      (∃ path item method op, Selected s d path item method op ∧
        label = operationLabel method path ∧
        argumentsOfOperation ⟨d.root⟩ item.parameters op = .error cause) ∧
      (ConvertError.operation label cause).errorClass ∈
        [ErrorClass.reference, .unsupported, .parameterCollision] ∧
      Occurs label (ConvertError.operation label cause).message) ∧
    ∀ d path cause, Rejection s d (.pathItem path cause) →
      (∃ ref, (path, ref) ∈ d.paths ∧
        RefScope.resolve ⟨d.root⟩ PathItem.decode? ref = .error cause) ∧
      (ConvertError.pathItem path cause).errorClass = .reference ∧
      Occurs path (ConvertError.pathItem path cause).message
  := by
  constructor
  · apply exists_convert_iff
  constructor
  · intro e
    apply convert_eq_error_iff
  constructor
  · intro d label cause h
    use h.exists_selected, ConvertError.errorClass_operation label cause
    apply ConvertError.occurs_label
  · intro d path cause h
    use h.exists_path, rfl
    apply ConvertError.occurs_path

/-- A document with one operation, which takes a parameter from a cookie. -/
def cookieDocument : Document where
  openapi := "3.0.0"
  title := "Pets"
  version := "1"
  description := none
  serverUrl := none
  paths :=
    [("/pets", .inline
      { operation := fun
          | .get => some
            { operationId := none
              summary := none
              description := none
              parameters := [.inline ⟨"sid", .cookie, false, none, .content⟩]
              requestBody := none }
          | _ => none
        parameters := [] })]
  root := .obj []

/-- The document with the cookie is refused, and the error names the operation. -/
theorem rejects_cookieDocument :
  Rejection .standard cookieDocument (.operation "GET /pets" (.cookie "sid")) ∧
    Occurs "GET /pets" (ConvertError.operation "GET /pets" (.cookie "sid")).message
  := by
  have h : Rejection .standard cookieDocument (.operation "GET /pets" (.cookie "sid")) := by
    apply Rejection.path
    · decide +kernel
    · apply FirstFails.here
      apply PathFails.method rfl
      apply FirstFails.here
      apply MethodFails.operation rfl rfl
      apply OperationFails.arguments rfl
  use h
  apply ((convert_accepts_or_rejects .standard .byConvention []).2.2.1 cookieDocument _ _ h).2.2

end ApiIntake
