import Mathlib.Data.List.Basic
import ApiIntake.EventStream.Item

/-!
# Streams in pieces

Where a stream of lines is cut into pieces does not matter: what a reader meets are the events of
the lines (`items_of_lines`), also if a line arrives byte by byte.  That holds of lines that only a
line feed ends and of which none is refused.

A piece ends some lines and begins another one (`exists_lines`); the lines that it ends are the
first ones of those that are still to come (`exists_rest`).
-/

namespace ApiIntake.EventStream

/-- Lines, each with the line feed that ends it. -/
def unlines (lines : List (List UInt8)) : List UInt8 := lines.flatMap (· ++ [10])

variable {lines done : List (List UInt8)}

/-- The first line and its end stand before the others. -/
theorem unlines_cons (line : List UInt8) (lines : List (List UInt8)) :
  unlines (line :: lines) = line ++ 10 :: unlines lines
  := by
  rw [unlines, List.flatMap_cons, List.append_assoc]
  rfl

/-- Lines stand behind others. -/
theorem unlines_append (lines others : List (List UInt8)) :
  unlines (lines ++ others) = unlines lines ++ unlines others
  := by
  rw [unlines, List.flatMap_append]
  rfl

/-! ### The lines that a piece ends -/

/-- The parts of a piece without carriage returns are the lines that end in it and what stands
behind them. -/
theorem exists_lines {bytes : List UInt8} (hr : 13 ∉ bytes) :
  ∃ lines last, splitLines false bytes = (lines ++ [last], false) ∧
    bytes = unlines lines ++ last ∧ (∀ l ∈ lines, 10 ∉ l) ∧ 10 ∉ last
  := by
  induction bytes with
  | nil => exact ⟨[], [], rfl, rfl, by simp, by simp⟩
  | cons b bs ih =>
      have hb : b ≠ 13 := Ne.symm (List.ne_of_not_mem_cons hr)
      obtain ⟨lines, last, hs, rfl, hlines, hlast⟩ := ih (List.not_mem_of_not_mem_cons hr)
      by_cases h10 : b = 10
      · use [] :: lines, last
        refine ⟨?_, ?_, ?_, hlast⟩
        · rw [splitLines, if_pos h10, hs]
          rfl
        · rw [h10, unlines_cons]
          rfl
        · rw [List.forall_mem_cons]
          exact ⟨List.not_mem_nil, hlines⟩
      · cases lines with
        | nil =>
            refine ⟨[], b :: last, ?_, rfl, by simp, by simp [Ne.symm h10, hlast]⟩
            rw [splitLines, if_neg h10, if_neg hb, hs]
            rfl
        | cons l ls =>
            refine ⟨(b :: l) :: ls, last, ?_, ?_, ?_, hlast⟩
            · rw [splitLines, if_neg h10, if_neg hb, hs]
              rfl
            · rw [unlines_cons, unlines_cons]
              rfl
            · rw [List.forall_mem_cons] at hlines ⊢
              exact ⟨List.not_mem_cons_of_ne_of_not_mem (Ne.symm h10) hlines.1, hlines.2⟩

/-- What stands before the first line feed is the same on both sides. -/
theorem line_inj {l m r s : List UInt8} (h : l ++ 10 :: r = m ++ 10 :: s) (hl : 10 ∉ l)
    (hm : 10 ∉ m) :
  l = m ∧ r = s
  := by
  rcases List.append_eq_append_iff.mp h with ⟨t, ht, htail⟩ | ⟨t, ht, htail⟩
  all_goals
    cases t with
    | nil => simp_all
    | cons b t =>
        have hb : b = 10 := by simp_all
        simp [ht, hb] at hl hm

/-- The lines that have ended are the first ones of all lines. -/
theorem exists_rest {tail : List UInt8} (h : unlines done ++ tail = unlines lines)
    (hdone : ∀ l ∈ done, 10 ∉ l) (hlines : ∀ l ∈ lines, 10 ∉ l) :
  ∃ rest, lines = done ++ rest ∧ tail = unlines rest
  := by
  induction done generalizing lines with
  | nil => exact ⟨lines, rfl, h⟩
  | cons d ds ih =>
      rw [unlines_cons, List.append_assoc, List.cons_append] at h
      rw [List.forall_mem_cons] at hdone
      cases lines with
      | nil => simp [unlines] at h
      | cons l ls =>
          rw [List.forall_mem_cons] at hlines
          rw [unlines_cons] at h
          obtain ⟨rfl, htail⟩ := line_inj h hdone.1 hlines.1
          obtain ⟨rest, rfl, ht⟩ := ih htail hdone.2 hlines.2
          exact ⟨rest, rfl, ht⟩

/-! ### Reading lines -/

/-- Reads a line: the event that it completes, if any, and the event that is begun behind it.
There is no result if the line is refused. -/
def readLine : Option Fields → List UInt8 → Option (List Fields × Option Fields)
  | fields, [] => some (fields.toList, none)
  | fields, line =>
    let field := line.takeWhile (· ≠ 58)
    if field.length = line.length then none
    else if field.isEmpty then some ([], fields)
    else
      let value := line.drop (field.length + 1)
      let value := if value.head? = some 32 then value.drop 1 else value
      ((fields.getD .empty).add? field value).map fun f => ([], some f)

/-- Lines are read one after another, up to one that is refused. -/
theorem readLines_cons (fields : Option Fields) (line : List UInt8) (rest : List (List UInt8)) :
  readLines fields (line :: rest) =
    match readLine fields line with
    | none => ([], fields, true)
    | some (events, fields) => (events ++ (readLines fields rest).1, (readLines fields rest).2)
  := by
  cases line with
  | nil => rfl
  | cons b bs =>
      simp only [readLines, readLine]
      split
      · rfl
      split
      · rfl
      cases Fields.add? (fields.getD .empty) _ _ <;> rfl

/-- If no line is refused, the lines of one stretch are read behind those of another. -/
theorem readLines_append {fields last : Option Fields} {events : List Fields}
    {rest : List (List UInt8)} (h : readLines fields (done ++ rest) = (events, last, false)) :
  ∃ es fields' es', readLines fields done = (es, fields', false) ∧
    readLines fields' rest = (es', last, false) ∧ events = es ++ es'
  := by
  induction done generalizing fields events with
  | nil => exact ⟨[], fields, events, rfl, h, rfl⟩
  | cons line done ih =>
      rw [List.cons_append, readLines_cons] at h
      rw [readLines_cons]
      cases hl : readLine fields line with
      | none => simp [hl] at h
      | some r =>
          obtain ⟨completed, begun⟩ := r
          rw [hl] at h
          obtain ⟨hevents, hlast⟩ := Prod.mk.inj h
          have hlater : readLines begun (done ++ rest) =
              ((readLines begun (done ++ rest)).1, last, false) := Prod.ext rfl hlast
          obtain ⟨es, fields', es', hdone, hrest, heq⟩ := ih hlater
          refine ⟨completed ++ es, fields', es', ?_, hrest, ?_⟩
          · simp only [hdone]
          · rw [← hevents, List.append_assoc]
            exact congrArg (completed ++ ·) heq

/-! ### Reading pieces -/

/-- A piece ends some lines, of which the first may have begun earlier, and is read as these. -/
theorem exists_piece {r : Reading} {bytes : List UInt8} (hr : r.afterReturn = false)
    (hbegun : 10 ∉ r.begun) (hbytes : 13 ∉ bytes) :
  ∃ done begun, r.begun ++ bytes = unlines done ++ begun ∧ (∀ l ∈ done, 10 ∉ l) ∧ 10 ∉ begun ∧
    ∀ events fields, (∀ l ∈ done, byteOrderMark.isPrefixOf l = false) →
      readLines r.fields done = (events, fields, false) →
      r.piece bytes = (events.map .event, ⟨fields, begun, false, r.atStart && done.isEmpty⟩)
  := by
  obtain ⟨lines, last, hs, rfl, hlines, hlast⟩ := exists_lines hbytes
  cases lines with
  | nil =>
      refine ⟨[], r.begun ++ last, rfl, by simp, by simp [hbegun, hlast], ?_⟩
      intro events fields _ hread
      cases hread
      simp [Reading.piece, hr, hs, readLines]
  | cons l ls =>
      rw [List.forall_mem_cons] at hlines
      refine ⟨(r.begun ++ l) :: ls, last, by simp [unlines_cons], ?_, hlast, ?_⟩
      · rw [List.forall_mem_cons]
        exact ⟨by simp [hbegun, hlines.1], hlines.2⟩
      · intro events fields unmarked hread
        have hfirst := unmarked _ List.mem_cons_self
        have hdone : ((r.begun ++ l) :: (ls ++ [last])).dropLast = (r.begun ++ l) :: ls := by
          rw [← List.cons_append, List.dropLast_concat]
        have hlast : ((r.begun ++ l) :: (ls ++ [last])).getLastD [] = last := by
          rw [← List.cons_append, List.getLastD_concat]
        simp only [Reading.piece, hr, hs, List.cons_append, hdone, hlast, hfirst, Bool.and_false,
          Bool.false_eq_true, if_false, hread, List.nil_append, List.isEmpty_cons]

/-- What a reader meets that goes on from anywhere in a stream of lines. -/
theorem items_from {r : Reading} {pieces : List (List UInt8)} {events : List Fields}
    {last : Option Fields} (hr : r.afterReturn = false) (hbegun : 10 ∉ r.begun)
    (hpieces : 13 ∉ pieces.flatten) (hflat : r.begun ++ pieces.flatten = unlines lines)
    (hlines : ∀ l ∈ lines, 10 ∉ l) (unmarked : ∀ l ∈ lines, byteOrderMark.isPrefixOf l = false)
    (hread : readLines r.fields lines = (events, last, false)) :
  r.items pieces = events.map .event
  := by
  -- what was begun and what is still to come are together the lines that are left
  induction pieces generalizing r lines events with
  | nil =>
      cases lines with
      | nil =>
          cases hread
          rfl
      | cons l ls =>
          rw [List.flatten_nil, List.append_nil, unlines_cons] at hflat
          simp [hflat] at hbegun
  | cons bytes pieces ih =>
      rw [List.flatten_cons] at hpieces hflat
      rw [List.mem_append, not_or] at hpieces
      obtain ⟨done, begun, heq, hdone, hbegun', hpiece⟩ := exists_piece hr hbegun hpieces.1
      rw [← List.append_assoc, heq, List.append_assoc] at hflat
      obtain ⟨rest, rfl, htail⟩ := exists_rest hflat hdone hlines
      rw [List.forall_mem_append] at hlines unmarked
      obtain ⟨es, fields', es', hes, hes', rfl⟩ := readLines_append hread
      rw [Reading.items, hpiece es fields' unmarked.1 hes, List.map_append]
      apply congrArg (es.map Item.event ++ ·)
      apply ih rfl hbegun' hpieces.2 htail hlines.2 unmarked.2 hes'

/-- The events of lines are what a reader meets in them, in whatever pieces they arrive. -/
theorem items_of_lines {pieces : List (List UInt8)} {events : List Fields} {last : Option Fields}
    (hflat : pieces.flatten = unlines lines) (hlines : ∀ l ∈ lines, 10 ∉ l ∧ 13 ∉ l)
    (unmarked : ∀ l ∈ lines, byteOrderMark.isPrefixOf l = false)
    (hread : readLines none lines = (events, last, false)) :
  items pieces = events.map .event
  := by
  have hpieces : 13 ∉ pieces.flatten := by
    rw [hflat]
    intro h
    obtain ⟨l, hl, h⟩ := List.mem_flatMap.mp h
    rw [List.mem_append, List.mem_singleton] at h
    rcases h with h | h
    · apply (hlines l hl).2 h
    · contradiction
  have hstart : Reading.start.begun ++ pieces.flatten = unlines lines := hflat
  apply items_from rfl List.not_mem_nil hpieces hstart _ unmarked hread
  intro l hl
  apply (hlines l hl).1

end ApiIntake.EventStream
