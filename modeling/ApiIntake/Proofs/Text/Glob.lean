import ApiIntake.Settings
import Mathlib.Data.List.Basic
import Mathlib.Data.List.Forall2
import Mathlib.Tactic.SplitIfs
import Mathlib.Tactic.Use

/-!
# What patterns match

A pattern matches a text that is cut into one piece for each of its bytes (`Text.Matches`).
The matcher comes to an end, and its answer is whether the pattern matches
(`Discovery.selects_iff_matches`): whenever it meets a star, the ones in front have nothing to
add, since what they could still reach this star can skip (`Scan.matches_of_later`).
-/

namespace ApiIntake

namespace Text

/-- What a byte of a pattern can stand for. -/
def Fits (p : UInt8) (piece : List UInt8) : Prop :=
  if p = star then True
  else if p = anyByte then piece.length = 1
  else piece = [p]

/-- A text can be cut into pieces that the bytes of a pattern stand for. -/
def Matches (pattern text : List UInt8) : Prop :=
  ∃ pieces, List.Forall₂ Fits pattern pieces ∧ pieces.flatten = text

variable {p b c : UInt8} {ps q bs text rest : List UInt8}

/-! ### Patterns byte by byte -/

/-- The empty pattern matches nothing but the empty text. -/
theorem matches_nil :
  Matches [] text ↔ text = []
  := by
  constructor
  · rintro ⟨pieces, hpieces, rfl⟩
    cases hpieces
    rfl
  · rintro rfl
    exact ⟨[], .nil, rfl⟩

/-- A pattern matches if its first byte stands for a piece in front that the rest matches
behind. -/
theorem matches_cons :
  Matches (p :: ps) text ↔ ∃ piece rest, Fits p piece ∧ Matches ps rest ∧ piece ++ rest = text
  := by
  constructor
  · rintro ⟨pieces, hpieces, rfl⟩
    cases hpieces with
    | cons hp hps => exact ⟨_, _, hp, ⟨_, hps, rfl⟩, rfl⟩
  · rintro ⟨piece, rest, hp, ⟨pieces, hps, rfl⟩, rfl⟩
    exact ⟨piece :: pieces, .cons hp hps, rfl⟩

/-- A star stands for anything. -/
theorem fits_star (piece : List UInt8) :
  Fits star piece
  := by
  rw [Fits, if_pos rfl]
  trivial

/-- Any other byte stands for one byte. -/
theorem fits_iff_of_ne_star (hp : p ≠ star) (piece : List UInt8) :
  Fits p piece ↔ ∃ b, piece = [b] ∧ (p = anyByte ∨ p = b)
  := by
  rw [Fits, if_neg hp]
  split_ifs with ha
  · simp [List.length_eq_one_iff, ha]
  · constructor
    · rintro rfl
      exact ⟨p, rfl, .inr rfl⟩
    · rintro ⟨b, rfl, h | rfl⟩
      · apply absurd h ha
      · rfl

/-- Behind a star the pattern matches any end of the text. -/
theorem matches_star_iff :
  Matches (star :: ps) text ↔ ∃ taken rest, Matches ps rest ∧ taken ++ rest = text
  := by
  rw [matches_cons]
  simp only [fits_star, true_and]

/-- A byte other than a star takes one byte of the text. -/
theorem matches_cons_iff_of_ne_star (hp : p ≠ star) :
  Matches (p :: ps) text ↔ ∃ b rest, (p = anyByte ∨ p = b) ∧ Matches ps rest ∧ b :: rest = text
  := by
  rw [matches_cons]
  simp only [fits_iff_of_ne_star hp]
  constructor
  · rintro ⟨_, rest, ⟨b, rfl, hb⟩, hrest, rfl⟩
    exact ⟨b, rest, hb, hrest, rfl⟩
  · rintro ⟨b, rest, hb, hrest, rfl⟩
    exact ⟨[b], rest, ⟨b, rfl, hb⟩, hrest, rfl⟩

/-- A byte other than a star goes along with the text or not. -/
theorem matches_cons_cons (hp : p ≠ star) :
  Matches (p :: ps) (b :: bs) ↔ (p = anyByte ∨ p = b) ∧ Matches ps bs
  := by
  rw [matches_cons_iff_of_ne_star hp]
  constructor
  · rintro ⟨c, rest, hc, hrest, h⟩
    cases h
    exact ⟨hc, hrest⟩
  · rintro ⟨hb, hbs⟩
    exact ⟨b, bs, hb, hbs, rfl⟩

/-- A star takes nothing, or one byte and then what it takes of the rest. -/
theorem matches_star_cons :
  Matches (star :: ps) (b :: bs) ↔ Matches ps (b :: bs) ∨ Matches (star :: ps) bs
  := by
  simp only [matches_star_iff]
  constructor
  · rintro ⟨_ | ⟨c, taken⟩, rest, hrest, h⟩
    · left
      rwa [← h]
    · right
      exact ⟨taken, rest, hrest, (List.cons.inj h).2⟩
  · rintro (h | ⟨taken, rest, hrest, rfl⟩)
    · exact ⟨[], b :: bs, h, rfl⟩
    · exact ⟨b :: taken, rest, hrest, rfl⟩

/-- Where nothing is left of the text, a star takes nothing. -/
theorem matches_star_nil :
  Matches (star :: ps) [] ↔ Matches ps []
  := by
  rw [matches_star_iff]
  constructor
  · rintro ⟨taken, rest, hrest, h⟩
    obtain ⟨-, rfl⟩ := List.append_eq_nil_iff.mp h
    apply hrest
  · intro h
    exact ⟨[], [], h, rfl⟩

/-- A star takes whatever stands in front of what it matches. -/
theorem matches_star_append (taken : List UInt8) (h : Matches (star :: ps) rest) :
  Matches (star :: ps) (taken ++ rest)
  := by
  obtain ⟨more, rest, hrest, rfl⟩ := matches_star_iff.mp h
  rw [matches_star_iff]
  exact ⟨taken ++ more, rest, hrest, List.append_assoc _ _ _⟩

/-- Nothing is matched by stars only. -/
theorem matches_empty_iff :
  ∀ {pattern}, Matches pattern [] ↔ (pattern.dropWhile (· = star)).isEmpty = true
  | [] => by simp [matches_nil]
  | p :: ps => by
    by_cases hp : p = star
    · rw [hp, matches_star_nil, matches_empty_iff, List.dropWhile_cons_of_pos (by simp)]
    · rw [matches_cons_iff_of_ne_star hp, List.dropWhile_cons_of_neg (by simpa using hp)]
      simp

/-- A piece of a pattern without stars takes as many bytes as it has. -/
theorem exists_of_matches_append (hq : star ∉ q) :
  ∀ {text}, Matches (q ++ ps) text →
    ∃ taken rest, taken.length = q.length ∧ Matches ps rest ∧ taken ++ rest = text
  := by
  induction q with
  | nil =>
      intro text h
      exact ⟨[], text, rfl, h, rfl⟩
  | cons p q ih =>
      intro text h
      obtain ⟨hp, hq⟩ := not_or.mp (List.mem_cons.not.mp hq)
      obtain ⟨b, bs, -, hbs, rfl⟩ := (matches_cons_iff_of_ne_star (Ne.symm hp)).mp h
      obtain ⟨taken, rest, hlength, hrest, rfl⟩ := ih hq hbs
      exact ⟨b :: taken, rest, congrArg (· + 1) hlength, hrest, rfl⟩

/-! ### Turns of the matcher -/

namespace Scan

variable {s next : Scan} {l : LastStar} {verdict : Bool} {turns : Nat}

/-- The matcher comes to an answer after a number of turns. -/
inductive Ends : Nat → Scan → Bool → Prop
  /-- This turn gives the answer. -/
  | now {s : Scan} {verdict : Bool} (h : s.move = .inl verdict) :
    Ends 1 s verdict
  /-- The turns after this one give the answer. -/
  | later {turns : Nat} {s next : Scan} {verdict : Bool} (h : s.move = .inr next)
    (rest : Ends turns next verdict) :
    Ends (turns + 1) s verdict

/-- The matcher comes to its answer with as many turns as are left. -/
theorem ends_answer (s : Scan) :
  ∃ turns ≤ s.turnsLeft + 1, Ends turns s s.answer
  := by
  induction s using answer.induct with
  | case1 s verdict h =>
      rw [answer, h]
      use 1, Nat.le_add_left 1 _
      apply Ends.now h
  | case2 s next h ih =>
      rw [answer, h]
      obtain ⟨turns, hturns, hends⟩ := ih
      have hless := turnsLeft_move_lt h
      use turns + 1, by omega
      apply Ends.later h hends

/-- Since the star seen last, as much was passed of the pattern as of the text, and no other
star. -/
def Follows (s : Scan) : Prop :=
  ∀ l ∈ s.lastStar, ∃ q passed, star ∉ q ∧ q.length = passed.length ∧
    l.pattern = q ++ s.pattern ∧ l.text = passed ++ s.text

/-- The star seen last can take more of the text so that the pattern behind it matches. -/
def Later (l : LastStar) : Prop :=
  ∃ b bs, l.text = b :: bs ∧ Matches (star :: l.pattern) bs

/-- The pattern can still match: from where the matcher is, or with more for the star. -/
def Open (s : Scan) : Prop :=
  Matches s.pattern s.text ∨ ∃ l ∈ s.lastStar, Later l

/-- Right behind a star nothing has been passed. -/
theorem follows_behind (l : LastStar) :
  (behind l).Follows
  := by
  rintro _ ⟨⟩
  exact ⟨[], [], by simp, rfl, rfl, rfl⟩

/-- Right behind a star, the pattern can match as with the star. -/
theorem open_behind_iff :
  (behind l).Open ↔ Matches (star :: l.pattern) l.text
  := by
  cases hl : l.text with
  | nil => simp [Open, behind, Later, hl, matches_star_nil]
  | cons b bs => simp [Open, behind, Later, hl, matches_star_cons]

/-- Where the next star stands, it matches whatever the one before can still reach: that one
only makes the text behind it shorter. -/
theorem matches_of_later (h : s.Follows) (hl : l ∈ s.lastStar)
    (hpattern : s.pattern = star :: ps) (later : Later l) :
  Matches s.pattern s.text
  := by
  obtain ⟨q, passed, hq, hlength, hlp, hlt⟩ := h l hl
  obtain ⟨b, bs, hbs, hmatch⟩ := later
  obtain ⟨taken, rest, hrest, rfl⟩ := matches_star_iff.mp hmatch
  rw [hlp, hpattern] at hrest
  obtain ⟨along, rest, halong, hstar, rfl⟩ := exists_of_matches_append hq hrest
  -- Both texts end the same, and this one is no shorter: the star here skips the rest.
  have hrestEnd : rest <:+ l.text := by
    use b :: (taken ++ along)
    rw [hbs, List.cons_append, List.append_assoc]
  have hend : s.text <:+ l.text := ⟨passed, hlt.symm⟩
  have hshorter : rest.length ≤ s.text.length := by
    have hsame := congrArg List.length (hlt.symm.trans hbs)
    simp only [List.length_append, List.length_cons] at hsame
    omega
  obtain ⟨skipped, hskipped⟩ := List.suffix_of_suffix_length_le hrestEnd hend hshorter
  rw [hpattern, ← hskipped]
  apply matches_star_append skipped hstar

/-- Behind the whole text the star seen last has nothing more to take. -/
theorem not_later_of_text_eq_nil (h : s.Follows) (hl : l ∈ s.lastStar) (htext : s.text = []) :
  ¬ Later l
  := by
  rintro ⟨b, bs, hbs, hmatch⟩
  obtain ⟨q, passed, hq, hlength, hlp, hlt⟩ := h l hl
  obtain ⟨taken, rest, hrest, rfl⟩ := matches_star_iff.mp hmatch
  rw [hlp] at hrest
  obtain ⟨along, rest, halong, -, rfl⟩ := exists_of_matches_append hq hrest
  have hsame := congrArg List.length (hlt.symm.trans hbs)
  simp only [htext, List.length_append, List.length_cons, List.length_nil] at hsame
  omega

/-- What a turn has to make of a matcher: the answer is whether the pattern can still match, or
the turn changes nothing about that. -/
def Right (s : Scan) : Bool ⊕ Scan → Prop
  | .inl verdict => verdict = true ↔ s.Open
  | .inr next => next.Follows ∧ (next.Open ↔ s.Open)

/-- Falling back is right where the pattern does not match from here. -/
theorem right_fallBack {s : Scan} {b : UInt8} {bs : List UInt8} (htext : s.text = b :: bs)
    (hs : ¬ Matches s.pattern s.text) :
  Right s (fallBack s.lastStar)
  := by
  cases hlast : s.lastStar with
  | none => simp [fallBack, Right, Open, hs, hlast]
  | some l =>
      constructor
      · apply follows_behind
      · rw [open_behind_iff]
        cases hl : l.text with
        | nil =>
            have hreach := (s.reach l hlast).1
            rw [htext, hl] at hreach
            cases hreach
        | cons c cs => simp [Open, hs, hlast, Later, hl]

/-- Every turn is right. -/
theorem right_move (h : s.Follows) :
  Right s s.move
  := by
  obtain ⟨pattern, text, lastStar, reach⟩ := s
  match pattern, text with
  | pattern, [] =>
    have hlast : ¬ ∃ l ∈ lastStar, Later l := by
      rintro ⟨l, hl, later⟩
      apply not_later_of_text_eq_nil h hl rfl later
    rw [move, Right, Open, or_iff_left hlast, matches_empty_iff]
  | [], b :: bs =>
    apply right_fallBack rfl
    rw [matches_nil]
    apply List.cons_ne_nil
  | p :: ps, b :: bs =>
    rw [move]
    split_ifs with hp hb
    · obtain rfl := hp
      constructor
      · apply follows_behind
      · rw [open_behind_iff, Open, or_iff_left_of_imp]
        rintro ⟨l, hl, later⟩
        apply matches_of_later h hl rfl later
    · constructor
      · intro l hl
        obtain ⟨q, passed, hq, hlength, hlp, hlt⟩ := h l hl
        use q ++ [p], passed ++ [b]
        simp [hq, hlength, hlp, hlt, Ne.symm hp]
      · simp only [Open, matches_cons_cons hp, hb, true_and]
    · apply right_fallBack rfl
      rw [matches_cons_cons hp]
      intro hmatch
      apply hb hmatch.1

/-- The answer that the matcher comes to is whether the pattern can still match. -/
theorem eq_true_iff_of_ends (ends : Ends turns s verdict) (h : s.Follows) :
  verdict = true ↔ s.Open
  := by
  induction ends with
  | now hmove =>
      have hright := right_move h
      rw [hmove] at hright
      apply hright
  | later hmove _ ih =>
      have hright := right_move h
      rw [hmove] at hright
      rw [ih hright.1, hright.2]

end Scan

/-- The answer of the matcher is whether the pattern matches. -/
theorem globAccepts_iff (pattern text : List UInt8) :
  globAccepts pattern text = true ↔ Matches pattern text
  := by
  have hfollows : (Scan.start pattern text).Follows := by
    rintro l ⟨⟩
  obtain ⟨turns, -, hends⟩ := (Scan.start pattern text).ends_answer
  rw [globAccepts, Scan.eq_true_iff_of_ends hends hfollows]
  simp [Scan.Open, Scan.start]

end Text

namespace Discovery

open ApiIntake.Text (Scan Matches globAccepts utf8)
open ApiIntake.OpenApi (Method)

/-- For every pattern and text the matcher comes to an end, after a number of turns that their
lengths bound, and its answer is whether the text can be cut into pieces that the bytes of the
pattern stand for.  So an operation is taken if discovery is on, no exclude pattern matches it,
and there is no include pattern or one that does. -/
theorem selects_iff_matches :
  (∀ pattern text : List UInt8,
    (∃ turns ≤ (text.length + 2) * (pattern.length + 1),
      Scan.Ends turns (Scan.start pattern text) (globAccepts pattern text)) ∧
    (globAccepts pattern text = true ↔ Matches pattern text)) ∧
  ∀ (d : Discovery) (method : Method) (path : String),
    d.selects method path = true ↔
      d.isOn = true ∧
      (∀ p ∈ d.unwanted, ¬ Matches (utf8 p) (utf8 (method.upper ++ " " ++ path))) ∧
      (d.wanted = [] ∨ ∃ p ∈ d.wanted, Matches (utf8 p) (utf8 (method.upper ++ " " ++ path)))
  := by
  constructor
  · intro pattern text
    have hturns : (text.length + 2) * (pattern.length + 1) =
        (Scan.start pattern text).turnsLeft + 1 := by
      rw [Scan.turnsLeft, Scan.start, Nat.succ_mul, Nat.add_assoc]
    rw [hturns]
    exact ⟨Scan.ends_answer _, Text.globAccepts_iff pattern text⟩
  · intro d method path
    simp only [selects, Text.glob, Bool.and_eq_true, Bool.or_eq_true, Bool.not_eq_true',
      List.any_eq_false, List.any_eq_true, Text.globAccepts_iff, List.isEmpty_iff, and_assoc]

end Discovery

end ApiIntake
