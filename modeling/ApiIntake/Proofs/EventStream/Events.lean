import Mathlib.Data.List.Basic
import ApiIntake.EventStream.Event
import ApiIntake.Proofs.EventStream.Pieces
import ApiIntake.Proofs.Text.Utf8

/-!
# Events read back

What a reader meets in the texts of events are these events, one for each text
(`items_of_events`): no text of an event ends it early, adds a field to it or begins another one.
That holds of events of which the name and the id have one line and the data has no carriage
return (`Event.Framed`).  The lines of the data are put together again.
-/

namespace ApiIntake.EventStream

open ApiIntake.Text

/-! ### The lines of an event -/

/-- The line of a field, without its end. -/
def fieldLine (field value : String) : List UInt8 := utf8 (field ++ ": " ++ value)

/-- A colon and a blank stand between a field and its value. -/
theorem fieldLine_eq (field value : String) :
  fieldLine field value = utf8 field ++ 58 :: 32 :: utf8 value
  := by
  rw [fieldLine, utf8_append, utf8_append, List.append_assoc]
  rfl

/-- The bytes of the line of a field. -/
theorem utf8_line (field value : String) :
  utf8 (Event.line field value) = fieldLine field value ++ [10]
  := by
  rw [Event.line, utf8_append]
  rfl

namespace Event

/-- The lines of the data. -/
def dataLines (e : Event) : List (List Char) := e.data.toList.splitOn '\n'

/-- The lines of an event, without their ends. -/
def lines (e : Event) : List (List UInt8) :=
  fieldLine "event" e.name :: (e.id.toList.map (fieldLine "id") ++
    (e.dataLines.map (fun cs => fieldLine "data" (.ofList cs)) ++ [[]]))

/-- What a reader meets in an event. -/
def fields (e : Event) : Fields := ⟨some e.name, e.id, some e.data⟩

/-- A text without the ends of lines. -/
def isUnbroken (s : String) : Prop := '\n' ∉ s.toList ∧ '\r' ∉ s.toList

instance (s : String) : Decidable (isUnbroken s) :=
  inferInstanceAs (Decidable ('\n' ∉ s.toList ∧ '\r' ∉ s.toList))

/-- Only the ends of lines in its data end lines of an event. -/
structure Framed (e : Event) : Prop where
  /-- The name has one line. -/
  name : isUnbroken e.name
  /-- The id has one line. -/
  id : ∀ i ∈ e.id, isUnbroken i
  /-- The lines of the data end with line feeds. -/
  data : '\r' ∉ e.data.toList

/-- The text of an event is its lines. -/
theorem utf8_text (e : Event) :
  utf8 e.text = unlines e.lines
  := by
  have hid : utf8 ((e.id.map (line "id")).getD "") =
      unlines (e.id.toList.map (fieldLine "id")) := by
    cases e.id with
    | none => rfl
    | some i =>
        change utf8 (line "id" i) = unlines [fieldLine "id" i]
        rw [utf8_line, unlines, List.flatMap_singleton]
  have hdata : utf8 (String.join (e.dataLines.map fun cs => line "data" (.ofList cs))) =
      unlines (e.dataLines.map fun cs => fieldLine "data" (.ofList cs)) := by
    rw [utf8_join, List.flatMap_map, unlines, List.flatMap_map]
    simp only [utf8_line]
  rw [text, utf8_append, utf8_append, utf8_append, utf8_line, hid, ← dataLines, hdata, lines,
    unlines_cons, unlines_append, unlines_append, List.append_assoc, List.append_assoc,
    List.append_assoc]
  rfl

end Event

/-- A line of some text holds what the text holds, but no line feed. -/
theorem mem_splitOn {cs l : List Char} {x : Char} (h : l ∈ cs.splitOn x) :
  x ∉ l ∧ l ⊆ cs
  := by
  induction cs generalizing l with
  | nil =>
      rw [List.splitOn_nil, List.mem_singleton] at h
      simp [h]
  | cons c cs ih =>
      rw [List.splitOn_cons_eq_if_modifyHead] at h
      split at h
      · obtain rfl | h := List.mem_cons.mp h
        · simp
        · exact ⟨(ih h).1, List.subset_cons_of_subset c (ih h).2⟩
      · next hc =>
          obtain ⟨m, ms, hms⟩ := List.exists_cons_of_ne_nil (List.splitOn_ne_nil x cs)
          rw [hms, List.modifyHead_cons] at h
          obtain rfl | h := List.mem_cons.mp h
          · obtain ⟨hx, hsub⟩ := ih (l := m) (by simp [hms])
            refine ⟨List.not_mem_cons_of_ne_of_not_mem ?_ hx, List.cons_subset_cons c hsub⟩
            rintro rfl
            simp at hc
          · obtain ⟨hx, hsub⟩ := ih (l := l) (by simp [hms, h])
            exact ⟨hx, List.subset_cons_of_subset c hsub⟩

/-! ### Reading the lines of an event -/

variable {f : Fields} {fields : Option Fields}

/-- The line of a field is read as a field with that value, whatever the value is. -/
theorem readLine_fieldLine {field : String} (named : field ≠ "") (unmarked : 58 ∉ utf8 field)
    (fields : Option Fields) (value : String) :
  readLine fields (fieldLine field value) =
    ((fields.getD .empty).add? (utf8 field) (utf8 value)).map fun f => ([], some f)
  := by
  have hfield : (utf8 field ++ 58 :: 32 :: utf8 value).takeWhile (· ≠ 58) = utf8 field := by
    rw [List.takeWhile_append_of_pos, List.takeWhile_cons_of_neg, List.append_nil]
    · simp
    · intro b hb
      simp only [decide_not, Bool.not_eq_true', decide_eq_false_iff_not]
      rintro rfl
      exact unmarked hb
  have hvalue : (utf8 field ++ 58 :: 32 :: utf8 value).drop ((utf8 field).length + 1) =
      32 :: utf8 value := by
    rw [List.drop_append]
    simp
  obtain ⟨b, bs, hbs⟩ := List.exists_cons_of_ne_nil (utf8_ne_nil named)
  have hlength : (utf8 field).length ≠ (utf8 field ++ 58 :: 32 :: utf8 value).length := by
    simp
  have hempty : (utf8 field).isEmpty = false := by
    rw [hbs]
    rfl
  rw [fieldLine_eq, readLine]
  · simp only [hfield, hvalue, if_neg hlength, hempty]
    rfl
  · simp

/-- The name is added. -/
theorem add?_event (h : f.name = none) (v : String) :
  f.add? (utf8 "event") (utf8 v) = some { f with name := some v }
  := by
  rw [Fields.add?, if_neg (by decide), if_pos rfl, ofUtf8?_utf8]
  simp [h]

/-- The id is added. -/
theorem add?_id (f : Fields) (v : String) :
  f.add? (utf8 "id") (utf8 v) = some { f with id := some v }
  := by
  rw [Fields.add?, if_neg (by decide), if_neg (by decide), if_pos rfl, ofUtf8?_utf8]
  rfl

/-- A line of the data is added. -/
theorem add?_data (f : Fields) (v : String) :
  f.add? (utf8 "data") (utf8 v) =
    some { f with data := some (match f.data with | some d => d ++ "\n" ++ v | none => v) }
  := by
  rw [Fields.add?, if_pos rfl, ofUtf8?_utf8]
  rfl

/-- A field that is added in its line is read, and the event goes on. -/
theorem readLines_fieldLine {field : String} {f' : Fields} {value : String}
    (named : field ≠ "") (unmarked : 58 ∉ utf8 field)
    (added : (fields.getD .empty).add? (utf8 field) (utf8 value) = some f')
    (rest : List (List UInt8)) :
  readLines fields (fieldLine field value :: rest) = readLines (some f') rest
  := by
  rw [readLines_cons, readLine_fieldLine named unmarked, added]
  rfl

/-- The lines of the data are put together again. -/
theorem readLines_dataLines (f : Fields) (d : List Char) (ls : List (List Char))
    (rest : List (List UInt8)) :
  readLines (some { f with data := some (.ofList d) })
      (ls.map (fun cs => fieldLine "data" (.ofList cs)) ++ rest) =
    readLines (some { f with data := some (.ofList (d ++ ls.flatMap ('\n' :: ·))) }) rest
  := by
  induction ls generalizing d with
  | nil => rw [List.flatMap_nil, List.append_nil, List.map_nil, List.nil_append]
  | cons l ls ih =>
      have hl : String.ofList d ++ "\n" ++ String.ofList l = String.ofList (d ++ '\n' :: l) := by
        rw [← String.toList_inj]
        simp
      rw [List.map_cons, List.cons_append,
        readLines_fieldLine (by decide) (by decide) (add?_data _ _)]
      simp only [Option.getD_some]
      rw [hl, ih, List.append_assoc]
      rfl

/-- Lines that are put together with a separator. -/
theorem intercalate_cons {α : Type} (x : α) (l : List α) (ls : List (List α)) :
  [x].intercalate (l :: ls) = l ++ ls.flatMap (x :: ·)
  := by
  induction ls generalizing l with
  | nil => rw [List.intercalate_singleton, List.flatMap_nil, List.append_nil]
  | cons m ms ih =>
      rw [List.intercalate_cons_cons, ih, List.flatMap_cons, List.append_assoc]
      rfl

namespace Event

/-- The lines of an event are read as the event, and what comes behind them as it is read
alone. -/
theorem readLines_lines (e : Event) (rest : List (List UInt8)) :
  readLines none (e.lines ++ rest) = (e.fields :: (readLines none rest).1, (readLines none rest).2)
  := by
  obtain ⟨l, ls, hls⟩ := List.exists_cons_of_ne_nil (List.splitOn_ne_nil '\n' e.data.toList)
  have hdata : String.ofList (l ++ ls.flatMap ('\n' :: ·)) = e.data := by
    rw [← intercalate_cons, ← hls, List.intercalate_splitOn, String.ofList_toList]
  have hid : ∀ f : Fields, f.id = none → ∀ rest,
      readLines (some f) (e.id.toList.map (fieldLine "id") ++ rest) =
        readLines (some { f with id := e.id }) rest := by
    intro f hf rest
    cases e.id with
    | none =>
        have hnone : { f with id := none } = f := by rw [← hf]
        rw [hnone]
        rfl
    | some i =>
        apply readLines_fieldLine (by decide) (by decide) (add?_id _ _)
  rw [lines, dataLines, hls, List.cons_append,
    readLines_fieldLine (by decide) (by decide) (add?_event rfl _), List.append_assoc, hid _ rfl,
    List.map_cons, List.cons_append, List.cons_append,
    readLines_fieldLine (by decide) (by decide) (add?_data _ _), List.append_assoc]
  have h := readLines_dataLines ⟨some e.name, e.id, none⟩ l ls ([[]] ++ rest)
  rw [hdata] at h
  apply h

/-- No line of an event ends before its end. -/
theorem Framed.notMem {e : Event} (he : e.Framed) :
  ∀ l ∈ e.lines, 10 ∉ l ∧ 13 ∉ l
  := by
  have hline : ∀ {field value : String}, isUnbroken field → isUnbroken value →
      10 ∉ fieldLine field value ∧ 13 ∉ fieldLine field value := by
    intro field value hf hv
    have hunbroken : isUnbroken (field ++ ": " ++ value) := by
      simp only [isUnbroken, String.toList_append, List.mem_append, not_or]
      exact ⟨⟨⟨hf.1, by decide⟩, hv.1⟩, ⟨hf.2, by decide⟩, hv.2⟩
    exact ⟨notMem_utf8 hunbroken.1 (by decide), notMem_utf8 hunbroken.2 (by decide)⟩
  intro l hl
  rw [lines, List.mem_cons, List.mem_append, List.mem_append, List.mem_map, List.mem_map,
    List.mem_singleton] at hl
  rcases hl with rfl | ⟨i, hi, rfl⟩ | ⟨cs, hcs, rfl⟩ | rfl
  · apply hline (by decide) he.name
  · apply hline (by decide) (he.id i (Option.mem_toList.mp hi))
  · obtain ⟨hn, hsub⟩ := mem_splitOn hcs
    apply hline (by decide)
    rw [isUnbroken, String.toList_ofList]
    exact ⟨hn, fun h => he.data (hsub h)⟩
  · simp

/-- No line of an event begins with a byte order mark. -/
theorem unmarked (e : Event) :
  ∀ l ∈ e.lines, byteOrderMark.isPrefixOf l = false
  := by
  intro l hl
  rw [lines, List.mem_cons, List.mem_append, List.mem_append, List.mem_map, List.mem_map,
    List.mem_singleton] at hl
  rcases hl with rfl | ⟨i, _, rfl⟩ | ⟨cs, _, rfl⟩ | rfl
  · rw [fieldLine_eq]
    rfl
  · rw [fieldLine_eq]
    rfl
  · rw [fieldLine_eq]
    rfl
  · rfl

end Event

/-- What a reader meets in the texts of events are the events. -/
theorem items_of_events {es : List Event} (framed : ∀ e ∈ es, e.Framed)
    {pieces : List (List UInt8)}
    (arrived : pieces.flatten = utf8 (String.join (es.map Event.text))) :
  items pieces = es.map fun e => .event e.fields
  := by
  have hread : readLines none (es.flatMap Event.lines) = (es.map Event.fields, none, false) := by
    clear framed arrived
    induction es with
    | nil => rfl
    | cons e es ih => rw [List.flatMap_cons, Event.readLines_lines, ih, List.map_cons]
  have hlines : utf8 (String.join (es.map Event.text)) = unlines (es.flatMap Event.lines) := by
    rw [utf8_join, List.flatMap_map, unlines, List.flatMap_assoc]
    simp only [Event.utf8_text]
    rfl
  rw [items_of_lines (arrived.trans hlines) _ _ hread, List.map_map]
  · rfl
  · intro l hl
    obtain ⟨e, he, hl⟩ := List.mem_flatMap.mp hl
    apply (framed e he).notMem l hl
  · intro l hl
    obtain ⟨e, _, hl⟩ := List.mem_flatMap.mp hl
    apply e.unmarked l hl

end ApiIntake.EventStream
