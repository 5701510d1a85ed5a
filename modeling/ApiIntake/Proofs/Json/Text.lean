import ApiIntake.Json.Parser
import ApiIntake.Json.Printer
import ApiIntake.Text.Utf8
import Mathlib.Data.List.Basic
import Mathlib.Data.List.TakeDrop
import Mathlib.Tactic.Use

/-!
# JSON text read back

The compact text of a value is read as that value (`Json.parse?_compact`), if the value holds
no floating-point numbers, its whole numbers are of those that are read as such, and it does
not nest too deeply (`Json.isPlain`).
-/

namespace ApiIntake

/-! ### Digits -/

namespace Text

/-- The digits of a number are read as that number. -/
theorem digitsValue_toDigits (n : Nat) :
  digitsValue (Nat.toDigits 10 n) = n
  := by
  have h : ∀ ds : List Char, digitsValue ds = Nat.ofDigitChars 10 ds 0 := by
    intro ds
    rw [digitsValue, Nat.ofDigitChars]
    simp only [Nat.mul_comm]
    rfl
  rw [h, Nat.ofDigitChars_toDigits (by decide) (by decide)]

/-- Of the digits only that of zero is a zero. -/
theorem digitChar_ne_zero :
  ∀ n < 10, Nat.digitChar n = '0' → n = 0
  := by
  decide

/-- Only zero is written with a zero in front. -/
theorem eq_zero_of_head?_toDigits {n : Nat} (h : (Nat.toDigits 10 n).head? = some '0') :
  n = 0
  := by
  induction n using Nat.strongRecOn with
  | ind n ih =>
      by_cases hn : n < 10
      · rw [Nat.toDigits_of_lt_base hn] at h
        apply digitChar_ne_zero n hn
        apply Option.some.inj h
      · have hle : 10 ≤ n := Nat.le_of_not_lt hn
        rw [Nat.toDigits_of_base_le (by decide) hle,
          List.head?_append_of_ne_nil _ Nat.toDigits_ne_nil] at h
        have hz := ih (n / 10) (by omega) h
        omega

/-- A number is written with digits. -/
theorem isDigit_of_mem_toDigits {n : Nat} {c : Char} (h : c ∈ Nat.toDigits 10 n) :
  c.isDigit = true
  := by
  apply Nat.isDigit_of_mem_toDigits _ _ h
  · decide
  · decide

/-- A hexadecimal digit is read as its value. -/
theorem hexValue?_hexDigit :
  ∀ n < 16, hexValue? (hexDigit n) = some n
  := by
  decide

end Text

namespace Json

/-! ### Strings -/

variable {fuel : Nat} {rest : List Char}

/-- A control character is read from its escape. -/
theorem unicodeEscape?_control {c : Char} (h : c.toNat < 32) (rest : List Char) :
  unicodeEscape?
      ('0' :: '0' :: Text.hexDigit (c.toNat / 16) :: Text.hexDigit (c.toNat % 16) :: rest) =
    some (c, rest)
  := by
  have hq := Text.hexValue?_hexDigit (c.toNat / 16) (by omega)
  have hr := Text.hexValue?_hexDigit (c.toNat % 16) (by omega)
  have hz : Text.hexValue? '0' = some 0 := rfl
  have hn : c.toNat / 16 * 16 + c.toNat % 16 = c.toNat := by omega
  have hlow : ¬ (0xD800 ≤ c.toNat ∧ c.toNat < 0xDC00) := by omega
  have hhigh : ¬ (0xDC00 ≤ c.toNat ∧ c.toNat < 0xE000) := by omega
  simp [unicodeEscape?, hexQuad?, hz, hq, hr, hn, hlow, hhigh]

/-- A character with an escape of its own is read from it. -/
theorem stringChars?_simple {e c : Char} (h : simpleEscape? e = some c) (fuel : Nat)
    (rest : List Char) :
  stringChars? (fuel + 1) ('\\' :: e :: rest) =
    (stringChars? fuel rest).map fun s => (c :: s.1, s.2)
  := by
  have hu : e ≠ 'u' := by
    rintro rfl
    cases h
  cases hs : stringChars? fuel rest <;> simp [stringChars?, h, hs]

/-- A character that needs no escape is read. -/
theorem stringChars?_plain {c : Char} (hq : c ≠ '"') (hb : c ≠ '\\') (hc : 32 ≤ c.toNat)
    (fuel : Nat) (rest : List Char) :
  stringChars? (fuel + 1) (c :: rest) = (stringChars? fuel rest).map fun s => (c :: s.1, s.2)
  := by
  have hn : ¬ (c = '\\' ∨ c.toNat < 32) := by
    rintro (h | h)
    · apply hb h
    · omega
  rw [stringChars?]
  · rw [if_neg hn]
    cases stringChars? fuel rest <;> rfl
  · apply hq
  · intro r h
    apply absurd h hb
  · intro e r h
    apply absurd h hb

/-- A character is read from the way in which it stands in a string. -/
theorem stringChars?_escapeChar (fuel : Nat) (c : Char) (rest : List Char) :
  stringChars? (fuel + 1) (escapeChar c ++ rest) =
    (stringChars? fuel rest).map fun s => (c :: s.1, s.2)
  := by
  rw [escapeChar]
  split_ifs with hq hb hc h h h h h
  · rw [hq]
    apply stringChars?_simple rfl
  · rw [hb]
    apply stringChars?_simple rfl
  · apply stringChars?_plain hq hb hc
  · rw [h]
    apply stringChars?_simple rfl
  · rw [h]
    apply stringChars?_simple rfl
  · rw [h]
    apply stringChars?_simple rfl
  · rw [h]
    apply stringChars?_simple rfl
  · rw [h]
    apply stringChars?_simple rfl
  · have hu := unicodeEscape?_control (Nat.lt_of_not_le hc) rest
    cases hs : stringChars? fuel rest <;> simp [stringChars?, hu, hs]

/-- Characters are read from the way in which they stand in a string. -/
theorem stringChars?_escaped (cs : List Char) (h : cs.length < fuel) (rest : List Char) :
  stringChars? fuel (cs.flatMap escapeChar ++ '"' :: rest) = some (cs, rest)
  := by
  induction cs generalizing fuel with
  | nil =>
      obtain ⟨fuel, rfl⟩ := Nat.exists_eq_add_one_of_ne_zero (Nat.ne_of_gt h)
      rfl
  | cons c cs ih =>
      obtain ⟨fuel, rfl⟩ := Nat.exists_eq_add_one_of_ne_zero (Nat.ne_zero_of_lt h)
      rw [List.length_cons] at h
      rw [List.flatMap_cons, List.append_assoc, stringChars?_escapeChar,
        ih (Nat.lt_of_succ_lt_succ h)]
      rfl

/-- No character is written as nothing. -/
theorem escapeChar_ne_nil (c : Char) :
  escapeChar c ≠ []
  := by
  rw [escapeChar]
  split_ifs <;> simp

/-- The text of a string is at least as long as the string. -/
theorem length_le_escaped (cs : List Char) :
  cs.length ≤ (cs.flatMap escapeChar).length
  := by
  induction cs with
  | nil => apply Nat.le_refl
  | cons c cs ih =>
      have hc := List.length_pos_of_ne_nil (escapeChar_ne_nil c)
      rw [List.flatMap_cons, List.length_append, List.length_cons]
      omega

/-- Behind its first quote, a string is read to its last one. -/
theorem stringChars?_quote (s : String) (rest : List Char) :
  ∃ cs, quote s ++ rest = '"' :: cs ∧
    stringChars? (cs.length + 1) cs = some (s.toList, rest)
  := by
  use s.toList.flatMap escapeChar ++ '"' :: rest
  constructor
  · simp [quote]
  · apply stringChars?_escaped
    have h := length_le_escaped s.toList
    rw [List.length_append]
    omega

/-! ### Numbers -/

/-- What stands behind a value in a text: nothing, a comma or a closing bracket. -/
def Closes : List Char → Prop
  | [] => True
  | c :: _ => c = ',' ∨ c = ']' ∨ c = '\x7d'

/-- The digits of a number end where a value ends. -/
theorem span_toDigits (n : Nat) (hr : Closes rest) :
  (Nat.toDigits 10 n ++ rest).span Char.isDigit = (Nat.toDigits 10 n, rest)
  := by
  have hd : ∀ c ∈ Nat.toDigits 10 n, c.isDigit = true := by
    intro c
    apply Text.isDigit_of_mem_toDigits
  rw [List.span_eq_takeWhile_dropWhile, List.takeWhile_append_of_pos hd,
    List.dropWhile_append_of_pos hd]
  cases rest with
  | nil => simp
  | cons c rest => obtain rfl | rfl | rfl := hr <;> simp [Char.isDigit]

/-- Behind a value stands nothing that a number could go on with. -/
theorem Closes.ne {c : Char} {cs : List Char} (h : Closes rest)
    (hc : ¬ (c = ',' ∨ c = ']' ∨ c = '\x7d')) :
  rest = c :: cs → False
  := by
  rintro rfl
  apply hc h

/-- Digits in front of the end of a value are all of a number. -/
theorem numberFrom?_digits (minus : Bool) (n : Nat) (hr : Closes rest) :
  numberFrom? minus (Nat.toDigits 10 n) rest =
    (numberOf? minus (Nat.toDigits 10 n) [] true 0).map fun v => (v, rest)
  := by
  rw [numberFrom?]
  · rw [if_neg (by decide), Bool.not_false]
    cases numberOf? minus (Nat.toDigits 10 n) [] true 0 <;> rfl
  · apply Nat.toDigits_ne_nil
  · intro d ds h
    have hn := Text.eq_zero_of_head?_toDigits (congrArg List.head? h)
    rw [hn] at h
    cases h
  · intro r
    apply hr.ne (by decide)
  · intro r
    apply hr.ne (by decide)
  · intro r
    apply hr.ne (by decide)

/-- A number begins with a digit. -/
theorem exists_digit (n : Nat) (rest : List Char) :
  ∃ d cs, Nat.toDigits 10 n ++ rest = d :: cs ∧ d.isDigit = true
  := by
  cases hn : Nat.toDigits 10 n with
  | nil => apply absurd hn Nat.toDigits_ne_nil
  | cons d ds =>
      use d, ds ++ rest, rfl
      apply Text.isDigit_of_mem_toDigits (n := n)
      rw [hn]
      apply List.mem_cons_self

/-- A number without a sign is not one with a sign. -/
theorem toDigits_append_ne (n : Nat) (r s : List Char) :
  Nat.toDigits 10 n ++ r ≠ '-' :: s
  := by
  obtain ⟨d, cs, hcs, hd⟩ := exists_digit n r
  rw [hcs]
  intro h
  cases h
  cases hd

/-- The text of a whole number begins with a sign or a digit. -/
theorem exists_sign_or_digit (n : Int) (rest : List Char) :
  ∃ c cs, intText n ++ rest = c :: cs ∧ (c = '-' ∨ c.isDigit = true)
  := by
  rw [intText]
  split
  · use '-', Binary64.digitText n.natAbs ++ rest, rfl
    left
    rfl
  · obtain ⟨d, cs, hcs, hd⟩ := exists_digit n.natAbs rest
    use d, cs, hcs
    right
    apply hd

/-- A sign or a digit is no other character. -/
theorem ne_of_sign_or_digit {c k : Char} (h : c = '-' ∨ c.isDigit = true) (hm : k ≠ '-')
    (hd : k.isDigit = false) :
  c ≠ k
  := by
  rintro rfl
  obtain h | h := h
  · apply hm h
  · rw [hd] at h
    cases h

/-- A whole number is read from its text. -/
theorem number?_intText {n : Int} (hlow : -0x8000000000000000 ≤ n)
    (hhigh : n < 0x10000000000000000) (hr : Closes rest) :
  number? (intText n ++ rest) = some (.int n, rest)
  := by
  have hs := span_toDigits n.natAbs hr
  have hv := Text.digitsValue_toDigits n.natAbs
  rw [intText, Binary64.digitText]
  by_cases hn : n < 0
  · have hpos : 0 < n.natAbs ∧ n.natAbs ≤ 0x8000000000000000 := by omega
    have habs : -(n.natAbs : Int) = n := by omega
    rw [if_pos hn, List.cons_append, number?]
    simp only [hs, numberFrom?_digits true _ hr, numberOf?, hv, if_true, if_pos hpos, habs,
      Option.map_some]
  · have hlt : n.natAbs < 0x10000000000000000 := by omega
    have habs : (n.natAbs : Int) = n := by omega
    rw [if_neg hn, number?]
    · simp only [hs, numberFrom?_digits false _ hr, numberOf?, hv, if_true, Bool.false_eq_true,
        if_false, if_pos hlt, habs, Option.map_some]
    · intro r
      apply toDigits_append_ne

/-! ### Values -/

mutual

/-- Whether a value holds only such numbers as are read back from their texts: whole ones of
64 bits, with or without a sign. -/
def isPlain : Json → Bool
  | .int n => -0x8000000000000000 ≤ n ∧ n < 0x10000000000000000
  | .float _ => false
  | .arr items => plainItems items
  | .obj members => plainMembers members
  | _ => true

/-- `isPlain` for every item. -/
def plainItems : List Json → Bool
  | [] => true
  | v :: rest => v.isPlain && plainItems rest

/-- `isPlain` for the value of every member. -/
def plainMembers : List (String × Json) → Bool
  | [] => true
  | (_, v) :: rest => v.isPlain && plainMembers rest

end

/-- A text that does not begin with a blank. -/
theorem skipBlanks_cons {c : Char} {cs : List Char}
    (h : ¬ (c = ' ' ∨ c = '\t' ∨ c = '\n' ∨ c = '\r')) :
  skipBlanks (c :: cs) = c :: cs
  := by
  rw [skipBlanks, if_neg h]

/-- A value that begins with a sign or a digit is a number. -/
theorem value?_number {depth : Nat} {c : Char} {cs : List Char} (h : c = '-' ∨ c.isDigit = true) :
  value? (fuel + 1) depth (c :: cs) = number? (c :: cs)
  := by
  have hc : ∀ k : Char, k ≠ '-' → k.isDigit = false → c ≠ k := by
    intro k
    apply ne_of_sign_or_digit h
  have hb : ¬ (c = ' ' ∨ c = '\t' ∨ c = '\n' ∨ c = '\r') := by
    simp [hc]
  rw [value?, skipBlanks_cons hb]
  split
  case h_7 => rfl
  all_goals
    rename_i hcs
    apply absurd (List.cons.inj hcs).1
    apply hc
    · decide
    · rfl

/-- No text of a value begins with a blank or a bracket that closes. -/
theorem exists_head {v : Json} (hp : v.isPlain = true) :
  ∃ c cs, v.chars = c :: cs ∧ ¬ (c = ' ' ∨ c = '\t' ∨ c = '\n' ∨ c = '\r') ∧ c ≠ ']'
  := by
  cases v with
  | null => exact ⟨_, _, rfl, by decide, by decide⟩
  | bool b =>
      cases b with
      | true => exact ⟨_, _, rfl, by decide, by decide⟩
      | false => exact ⟨_, _, rfl, by decide, by decide⟩
  | int n =>
      obtain ⟨c, cs, hcs, hc⟩ := exists_sign_or_digit n []
      rw [List.append_nil] at hcs
      use c, cs, hcs
      obtain rfl | hd := hc
      · decide
      · constructor
        · rintro (rfl | rfl | rfl | rfl) <;> cases hd
        · rintro rfl
          cases hd
  | float x => cases hp
  | str s => exact ⟨_, _, rfl, by decide, by decide⟩
  | arr items =>
      cases items with
      | nil => exact ⟨_, _, rfl, by decide, by decide⟩
      | cons v vs => exact ⟨_, _, rfl, by decide, by decide⟩
  | obj members =>
      cases members with
      | nil => exact ⟨_, _, rfl, by decide, by decide⟩
      | cons m ms => exact ⟨_, _, rfl, by decide, by decide⟩

/-- A string is read from its text. -/
theorem value?_quote (fuel depth : Nat) (s : String) (rest : List Char) :
  value? (fuel + 1) depth (quote s ++ rest) = some (.str s, rest)
  := by
  obtain ⟨cs, hq, hs⟩ := stringChars?_quote s rest
  rw [hq, value?, skipBlanks_cons (by decide)]
  simp [hs]

/-- An array is read from the text of its items. -/
theorem value?_arr {fuel depth : Nat} {c : Char} {cs : List Char} {items : List Json}
    (hb : ¬ (c = ' ' ∨ c = '\t' ∨ c = '\n' ∨ c = '\r')) (hc : c ≠ ']')
    (h : items? fuel depth (c :: cs) = some (items, rest)) :
  value? (fuel + 1) (depth + 1) ('[' :: c :: cs) = some (.arr items, rest)
  := by
  rw [value?, skipBlanks_cons (by decide)]
  simp [skipBlanks_cons hb, hc, h]

/-- An object is read from the text of its members. -/
theorem value?_obj {fuel depth : Nat} {cs : List Char} {members : List (String × Json)}
    (h : members? fuel depth ('"' :: cs) = some (members, rest)) :
  value? (fuel + 1) (depth + 1) ('\x7b' :: '"' :: cs) = some (.obj members, rest)
  := by
  have hq : skipBlanks ('"' :: cs) = '"' :: cs := skipBlanks_cons (by decide)
  rw [value?, skipBlanks_cons (by decide)]
  simp [hq, h]

/-- Behind an item the text of the others goes on, or the array closes. -/
theorem closes_itemChars (vs : List Json) (rest : List Char) :
  Closes (itemChars vs ++ rest)
  := by
  cases vs with
  | nil => exact .inr (.inl rfl)
  | cons v vs => exact .inl rfl

/-- Behind a member the text of the others goes on, or the object closes. -/
theorem closes_memberChars (ms : List (String × Json)) (rest : List Char) :
  Closes (memberChars ms ++ rest)
  := by
  cases ms with
  | nil => exact .inr (.inr rfl)
  | cons m ms => exact .inl rfl

mutual

/-- A value is read from its text, whatever closes behind it. -/
theorem value?_chars {v : Json} {fuel depth : Nat} {rest : List Char} (hp : v.isPlain = true)
    (hd : v.depth ≤ depth) (hf : v.chars.length ≤ fuel) (hr : Closes rest) :
  value? fuel depth (v.chars ++ rest) = some (v, rest)
  := by
  obtain ⟨c, cs, hcs, -, -⟩ := exists_head hp
  have hpos : fuel ≠ 0 := by
    rw [hcs, List.length_cons] at hf
    omega
  obtain ⟨fuel, rfl⟩ := Nat.exists_eq_add_one_of_ne_zero hpos
  cases v with
  | null => rfl
  | bool b => cases b <;> rfl
  | int n =>
      have hn : -0x8000000000000000 ≤ n ∧ n < 0x10000000000000000 := by
        simpa [isPlain] using hp
      obtain ⟨c, cs, hcs, hc⟩ := exists_sign_or_digit n rest
      rw [chars, ← number?_intText hn.1 hn.2 hr, hcs, value?_number hc]
  | float x => cases hp
  | str s => apply value?_quote
  | arr items =>
      obtain ⟨depth, rfl⟩ := Nat.exists_eq_add_of_le' (Nat.le_trans (Nat.le_add_left 1 _) hd)
      cases items with
      | nil => rfl
      | cons v vs =>
          have hv : v.isPlain = true := (Bool.and_eq_true_iff.mp hp).1
          obtain ⟨c, cs, hcs, hb, hc⟩ := exists_head hv
          have hi : items? fuel depth (v.chars ++ itemChars vs ++ rest) = some (v :: vs, rest) := by
            apply items?_chars hp (Nat.le_of_succ_le_succ hd) (Nat.le_of_succ_le_succ hf)
          rw [hcs] at hi
          rw [chars, hcs]
          apply value?_arr hb hc hi
  | obj members =>
      obtain ⟨depth, rfl⟩ := Nat.exists_eq_add_of_le' (Nat.le_trans (Nat.le_add_left 1 _) hd)
      cases members with
      | nil => rfl
      | cons m ms =>
          obtain ⟨k, v⟩ := m
          apply value?_obj
          apply members?_chars hp (Nat.le_of_succ_le_succ hd) (Nat.le_of_succ_le_succ hf)
termination_by fuel

/-- Items are read from their texts. -/
theorem items?_chars {v : Json} {vs : List Json} {fuel depth : Nat} {rest : List Char}
    (hp : plainItems (v :: vs) = true) (hd : itemsDepth (v :: vs) ≤ depth)
    (hf : (v.chars ++ itemChars vs).length ≤ fuel) :
  items? fuel depth (v.chars ++ itemChars vs ++ rest) = some (v :: vs, rest)
  := by
  obtain ⟨hv, hvs⟩ := Bool.and_eq_true_iff.mp hp
  obtain ⟨hdv, hdvs⟩ := Nat.max_le.mp hd
  rw [List.length_append] at hf
  cases vs with
  | nil =>
      rw [itemChars, List.length_singleton] at hf
      obtain ⟨fuel, rfl⟩ := Nat.exists_eq_add_of_le' (Nat.le_trans (Nat.le_add_left 1 _) hf)
      have h := value?_chars hv hdv (Nat.le_of_succ_le_succ hf) (closes_itemChars [] rest)
      rw [List.append_assoc, items?, h]
      rfl
  | cons w ws =>
      rw [itemChars, List.cons_append, List.length_cons] at hf
      obtain ⟨fuel, rfl⟩ := Nat.exists_eq_add_of_le' (show 1 ≤ fuel by omega)
      have h := value?_chars hv hdv (show v.chars.length ≤ fuel by omega)
        (closes_itemChars (w :: ws) rest)
      have hs : items? fuel depth (w.chars ++ itemChars ws ++ rest) = some (w :: ws, rest) := by
        apply items?_chars hvs hdvs
        omega
      rw [List.append_assoc, items?, h, itemChars]
      simp only [Option.bind_eq_bind, Option.bind_some, List.cons_append,
        skipBlanks_cons (show ¬ (',' = ' ' ∨ _) by decide), hs]
termination_by fuel

/-- Members are read from their texts. -/
theorem members?_chars {k : String} {v : Json} {ms : List (String × Json)} {fuel depth : Nat}
    {rest : List Char} (hp : plainMembers ((k, v) :: ms) = true)
    (hd : membersDepth ((k, v) :: ms) ≤ depth)
    (hf : (quote k ++ ':' :: v.chars ++ memberChars ms).length ≤ fuel) :
  members? fuel depth (quote k ++ ':' :: v.chars ++ memberChars ms ++ rest) =
    some ((k, v) :: ms, rest)
  := by
  obtain ⟨hv, hvs⟩ := Bool.and_eq_true_iff.mp hp
  obtain ⟨hdv, hdvs⟩ := Nat.max_le.mp hd
  rw [List.length_append, List.length_append, List.length_cons] at hf
  obtain ⟨fuel, rfl⟩ := Nat.exists_eq_add_of_le' (show 1 ≤ fuel by omega)
  obtain ⟨cs, hq, hs⟩ := stringChars?_quote k (':' :: v.chars ++ memberChars ms ++ rest)
  have h := value?_chars hv hdv (show v.chars.length ≤ fuel by omega) (closes_memberChars ms rest)
  have htext : quote k ++ ':' :: v.chars ++ memberChars ms ++ rest =
      quote k ++ (':' :: v.chars ++ memberChars ms ++ rest) := by
    simp only [List.append_assoc]
  rw [htext, hq, members?, skipBlanks_cons (by decide)]
  simp only [hs, Option.bind_eq_bind, Option.bind_some, List.cons_append,
    skipBlanks_cons (show ¬ (':' = ' ' ∨ _) by decide), List.append_assoc, h, String.ofList_toList]
  cases ms with
  | nil => rfl
  | cons m ms =>
      obtain ⟨l, w⟩ := m
      rw [memberChars, List.cons_append, List.cons_append, List.length_cons] at hf
      have hms : members? fuel depth
          (quote l ++ ':' :: w.chars ++ memberChars ms ++ rest) = some ((l, w) :: ms, rest) := by
        apply members?_chars hvs hdvs
        omega
      simp only [memberChars, List.cons_append,
        skipBlanks_cons (show ¬ (',' = ' ' ∨ _) by decide), hms, Option.bind_some]
termination_by fuel

end

/-! ### Texts of one line -/

/-- Whether a character is a control character, as the ends of lines are. -/
def isControl (c : Char) : Bool := c.toNat < 32

/-- A hexadecimal digit is no control character. -/
theorem isControl_hexDigit :
  ∀ n < 16, isControl (Text.hexDigit n) = false
  := by
  decide

/-- A decimal digit is no control character. -/
theorem isControl_of_isDigit {c : Char} (h : c.isDigit = true) :
  isControl c = false
  := by
  rw [Char.isDigit, Bool.and_eq_true, decide_eq_true_eq, decide_eq_true_eq] at h
  have hle : 48 ≤ c.toNat := UInt32.le_iff_toNat_le.mp h.1
  rw [isControl, decide_eq_false_iff_not]
  omega

/-- No control character stands in a string as it is. -/
theorem isControl_of_mem_escapeChar {c d : Char} (h : d ∈ escapeChar c) :
  isControl d = false
  := by
  have named : ∀ e : Char, isControl e = false → d ∈ ['\\', e] → isControl d = false := by
    intro e he hd
    rcases List.mem_pair.mp hd with rfl | rfl
    · rfl
    · apply he
  rw [escapeChar] at h
  split_ifs at h with hq hb hc
  · apply named _ rfl h
  · apply named _ rfl h
  · rw [List.mem_singleton.mp h, isControl, decide_eq_false_iff_not]
    apply Nat.not_lt.mpr hc
  · apply named _ rfl h
  · apply named _ rfl h
  · apply named _ rfl h
  · apply named _ rfl h
  · apply named _ rfl h
  · simp only [List.mem_cons, List.not_mem_nil, or_false] at h
    rcases h with rfl | rfl | rfl | rfl | rfl | rfl
    · rfl
    · rfl
    · rfl
    · rfl
    · apply isControl_hexDigit _ (by omega)
    · apply isControl_hexDigit _ (by omega)

/-- No control character stands in a quoted string. -/
theorem isControl_of_mem_quote {s : String} {d : Char} (h : d ∈ quote s) :
  isControl d = false
  := by
  rw [quote, List.mem_append, List.mem_cons, List.mem_singleton] at h
  rcases h with (rfl | h) | rfl
  · rfl
  · obtain ⟨c, _, hd⟩ := List.mem_flatMap.mp h
    apply isControl_of_mem_escapeChar hd
  · rfl

/-- No control character stands in the text of a whole number. -/
theorem isControl_of_mem_intText {n : Int} {d : Char} (h : d ∈ intText n) :
  isControl d = false
  := by
  have hdigits : ∀ d ∈ Binary64.digitText n.natAbs, isControl d = false := by
    intro d hd
    apply isControl_of_isDigit (Text.isDigit_of_mem_toDigits hd)
  rw [intText] at h
  split_ifs at h
  · obtain rfl | h := List.mem_cons.mp h
    · rfl
    · apply hdigits d h
  · apply hdigits d h

mutual

/-- No control character stands in the text of a value, so that it has one line. -/
theorem isControl_of_mem_chars {v : Json} {d : Char} (hp : v.isPlain = true)
    (h : d ∈ v.chars) :
  isControl d = false
  := by
  have closed : ∀ {cs : List Char}, cs.all (fun c => !isControl c) = true → d ∈ cs →
      isControl d = false := by
    intro cs hcs hd
    simpa using List.all_eq_true.mp hcs d hd
  match v with
  | .null => apply closed (by decide) h
  | .bool true => apply closed (by decide) h
  | .bool false => apply closed (by decide) h
  | .int n => apply isControl_of_mem_intText h
  | .float x => cases hp
  | .str s => apply isControl_of_mem_quote h
  | .arr [] => apply closed (by decide) h
  | .obj [] => apply closed (by decide) h
  | .arr (w :: ws) =>
      obtain ⟨hw, hws⟩ := Bool.and_eq_true_iff.mp hp
      rw [chars, List.mem_append, List.mem_cons] at h
      rcases h with (rfl | h) | h
      · rfl
      · apply isControl_of_mem_chars hw h
      · apply isControl_of_mem_itemChars hws h
  | .obj ((l, w) :: ms) =>
      obtain ⟨hw, hms⟩ := Bool.and_eq_true_iff.mp hp
      rw [chars, List.mem_append, List.mem_append, List.mem_cons, List.mem_cons] at h
      rcases h with ((rfl | h) | rfl | h) | h
      · rfl
      · apply isControl_of_mem_quote h
      · rfl
      · apply isControl_of_mem_chars hw h
      · apply isControl_of_mem_memberChars hms h

/-- No control character stands in the text of items. -/
theorem isControl_of_mem_itemChars {vs : List Json} {d : Char} (hp : plainItems vs = true)
    (h : d ∈ itemChars vs) :
  isControl d = false
  := by
  match vs with
  | [] =>
      rw [List.mem_singleton.mp h]
      rfl
  | v :: vs =>
      obtain ⟨hv, hvs⟩ := Bool.and_eq_true_iff.mp hp
      rw [itemChars, List.mem_append, List.mem_cons] at h
      rcases h with (rfl | h) | h
      · rfl
      · apply isControl_of_mem_chars hv h
      · apply isControl_of_mem_itemChars hvs h

/-- No control character stands in the text of members. -/
theorem isControl_of_mem_memberChars {ms : List (String × Json)} {d : Char}
    (hp : plainMembers ms = true) (h : d ∈ memberChars ms) :
  isControl d = false
  := by
  match ms with
  | [] =>
      rw [List.mem_singleton.mp h]
      rfl
  | (l, w) :: ms =>
      obtain ⟨hw, hms⟩ := Bool.and_eq_true_iff.mp hp
      rw [memberChars, List.mem_append, List.mem_append, List.mem_cons, List.mem_cons] at h
      rcases h with ((rfl | h) | rfl | h) | h
      · rfl
      · apply isControl_of_mem_quote h
      · rfl
      · apply isControl_of_mem_chars hw h
      · apply isControl_of_mem_memberChars hms h

end

/-- The text of a value has one line. -/
theorem notMem_compact {v : Json} (hp : v.isPlain = true) {d : Char} (hd : isControl d = true) :
  d ∉ v.compact.toList
  := by
  intro h
  rw [compact, String.toList_ofList] at h
  rw [isControl_of_mem_chars hp h] at hd
  cases hd

/-- The text of a value is read as the value. -/
theorem parse?_compact {v : Json} (hp : v.isPlain = true) (hd : v.depth ≤ depthLimit) :
  parse? v.compact = some v
  := by
  have hf : v.chars.length ≤ 2 * v.chars.length + 2 := by omega
  have h : value? _ _ (v.chars ++ []) = _ := value?_chars hp hd hf trivial
  rw [List.append_nil] at h
  rw [parse?, compact, String.toList_ofList]
  simp only [h]
  rfl

end Json

end ApiIntake
