import ApiIntake.Text.Utf8

/-!
# Patterns with wildcards

A pattern is a sequence of bytes in which `*` stands for any bytes, none included,
`?` for exactly one byte, and every other byte for itself.  The matcher goes through
the text once as long as the pattern goes along with it.  Where it does not, the star seen
last takes one more byte and the matcher goes on behind both; the stars in front of that
one are never come back to.
-/

namespace ApiIntake.Text

/-- The byte that stands for any bytes. -/
def star : UInt8 := 42

/-- The byte that stands for one byte. -/
def anyByte : UInt8 := 63

/-- The star seen last. -/
structure LastStar where
  /-- The pattern behind the star. -/
  pattern : List UInt8
  /-- The text behind the bytes that the star has taken. -/
  text : List UInt8

/-- How far the matcher has come. -/
structure Scan where
  /-- The rest of the pattern. -/
  pattern : List UInt8
  /-- The rest of the text. -/
  text : List UInt8
  /-- The star seen last, if there was one. -/
  lastStar : Option LastStar
  /-- The matcher stands behind the star. -/
  reach : ∀ l ∈ lastStar, text.length ≤ l.text.length ∧ pattern.length ≤ l.pattern.length

namespace Scan

/-- The matcher at its start. -/
def start (pattern text : List UInt8) : Scan where
  pattern := pattern
  text := text
  lastStar := none
  reach := by simp

/-- The matcher right behind a star. -/
def behind (l : LastStar) : Scan where
  pattern := l.pattern
  text := l.text
  lastStar := some l
  reach := by simp

/-- The pattern does not go along: the star seen last takes one more byte. -/
def fallBack : Option LastStar → Bool ⊕ Scan
  | none => .inl false
  | some l => .inr (behind ⟨l.pattern, l.text.tail⟩)

/-- One turn of the matcher: its answer, or how far it is then.  Behind the text only stars
match. -/
def move : Scan → Bool ⊕ Scan
  | ⟨pattern, [], _, _⟩ => .inl (pattern.dropWhile (· = star)).isEmpty
  | ⟨[], _ :: _, lastStar, _⟩ => fallBack lastStar
  | ⟨p :: ps, b :: bs, lastStar, reach⟩ =>
    if p = star then .inr (behind ⟨ps, b :: bs⟩)
    else if p = anyByte ∨ p = b then
      .inr ⟨ps, bs, lastStar, fun l hl => (reach l hl).imp Nat.le_of_succ_le Nat.le_of_succ_le⟩
    else fallBack lastStar

/-- How many turns the matcher takes at most: for each byte that the star seen last can still
take, one through the pattern behind it.  Without a star, one more than any star can take. -/
def turnsLeft (s : Scan) : Nat :=
  match s.lastStar with
  | none => (s.text.length + 1) * (s.pattern.length + 1) + s.pattern.length
  | some l => l.text.length * (l.pattern.length + 1) + s.pattern.length

/-- Right behind a star fewer turns are left than before. -/
theorem turnsLeft_behind_lt {s : Scan} {l : LastStar} (htext : l.text.length ≤ s.text.length)
    (hpattern : l.pattern.length < s.pattern.length) :
  (behind l).turnsLeft < s.turnsLeft
  := by
  have hproduct : ∀ {m n : Nat}, l.text.length ≤ m → l.pattern.length ≤ n →
      l.text.length * (l.pattern.length + 1) ≤ m * (n + 1) := by
    intro m n hm hn
    apply Nat.mul_le_mul hm (Nat.succ_le_succ hn)
  obtain ⟨pattern, text, lastStar, reach⟩ := s
  cases lastStar with
  | none =>
      apply Nat.add_lt_add_of_le_of_lt _ hpattern
      apply hproduct (Nat.le_succ_of_le htext) (Nat.le_of_lt hpattern)
  | some m =>
      obtain ⟨hm, hn⟩ := reach m rfl
      apply Nat.add_lt_add_of_le_of_lt _ hpattern
      apply hproduct (Nat.le_trans htext hm) (Nat.le_trans (Nat.le_of_lt hpattern) hn)

/-- Where the star takes one more byte, fewer turns are left than before. -/
theorem turnsLeft_fallBack_lt {s next : Scan} (htext : s.text ≠ [])
    (h : fallBack s.lastStar = .inr next) :
  next.turnsLeft < s.turnsLeft
  := by
  obtain ⟨pattern, text, lastStar, reach⟩ := s
  cases lastStar with
  | none => cases h
  | some l =>
      cases h
      obtain ⟨n, hn⟩ : ∃ n, l.text.length = n + 1 := by
        apply Nat.exists_eq_add_one.mpr
        apply Nat.lt_of_lt_of_le (List.length_pos_iff.mpr htext) (reach l rfl).1
      simp only [turnsLeft, behind, List.length_tail, hn, Nat.add_sub_cancel, Nat.succ_mul]
      omega

/-- Every turn leaves fewer. -/
theorem turnsLeft_move_lt {s next : Scan} (h : s.move = .inr next) :
  next.turnsLeft < s.turnsLeft
  := by
  obtain ⟨pattern, text, lastStar, reach⟩ := s
  match pattern, text with
  | _, [] => cases h
  | [], b :: bs =>
    rw [move] at h
    apply turnsLeft_fallBack_lt (List.cons_ne_nil b bs) h
  | p :: ps, b :: bs =>
    rw [move] at h
    split at h
    · cases h
      apply turnsLeft_behind_lt (Nat.le_refl _) (Nat.lt_succ_self _)
    · split at h
      · cases h
        cases lastStar with
        | none =>
            apply Nat.add_lt_add_of_le_of_lt _ (Nat.lt_succ_self _)
            apply Nat.mul_le_mul (Nat.le_succ _) (Nat.le_succ _)
        | some l => exact Nat.add_lt_add_left (Nat.lt_succ_self _) _
      · apply turnsLeft_fallBack_lt (List.cons_ne_nil b bs) h

/-- What the matcher answers in the end. -/
def answer (s : Scan) : Bool :=
  match _ : s.move with
  | .inl verdict => verdict
  | .inr next => next.answer
termination_by s.turnsLeft
decreasing_by exact turnsLeft_move_lt ‹_›

end Scan

/-- Whether the whole text matches the pattern, byte by byte. -/
def globAccepts (pattern text : List UInt8) : Bool := (Scan.start pattern text).answer

/-- `globAccepts` on the UTF-8 bytes of two texts. -/
def glob (pattern text : String) : Bool := globAccepts (utf8 pattern) (utf8 text)

example : glob "GET /a*/?" "GET /abc/d" = true := by decide +kernel

example : glob "*b*" "aaca" = false := by decide +kernel

end ApiIntake.Text
