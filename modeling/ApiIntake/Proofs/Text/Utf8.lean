import ApiIntake.Text.Lossy
import Mathlib.Data.List.Basic

/-!
# Text as bytes and back

The bytes of a text are read as that text (`ofUtf8?_utf8`), also by a reader that mends what is
damaged (`ofBytesLossy_utf8`), if no byte order mark stands before it.

The bytes of a character below 128 are that one byte, and no byte of another character is below
128 (`eq_of_mem_utf8EncodeChar`).  So a separator between texts is no part of a longer character.
-/

namespace ApiIntake.Text

/-! ### Bytes of a text -/

/-- The bytes of one text behind another. -/
theorem utf8_append (s t : String) :
  utf8 (s ++ t) = utf8 s ++ utf8 t
  := by
  rw [utf8, String.toList_append, List.flatMap_append]
  rfl

/-- The bytes of texts that are joined. -/
theorem utf8_join (ss : List String) :
  utf8 (String.join ss) = ss.flatMap utf8
  := by
  rw [utf8, String.toList_join, List.flatMap_assoc]
  rfl

/-- Only the empty text has no bytes. -/
theorem utf8_ne_nil {s : String} (h : s ≠ "") :
  utf8 s ≠ []
  := by
  rw [utf8, Ne, List.flatMap_eq_nil_iff]
  intro hs
  apply h
  rw [← String.toList_eq_nil_iff, List.eq_nil_iff_forall_not_mem]
  intro c hc
  apply String.utf8EncodeChar_ne_nil (hs c hc)

/-- A text of characters below 128 has one byte for each of them. -/
theorem utf8_of_lt {cs : List Char} (h : ∀ c ∈ cs, c.toNat < 128) :
  utf8 (String.ofList cs) = cs.map fun c => c.val.toUInt8
  := by
  rw [utf8, String.toList_ofList, List.map_eq_flatMap]
  apply List.flatMap_congr
  intro c hc
  apply String.utf8EncodeChar_eq_singleton
  apply Char.utf8Size_eq_one_iff.mpr
  apply Nat.le_of_lt_succ (h c hc)

/-- Such a text is cut behind a number of bytes where it is cut behind as many characters. -/
theorem take_utf8 {cs : List Char} (h : ∀ c ∈ cs, c.toNat < 128) (n : Nat) :
  (utf8 (String.ofList cs)).take n = utf8 (String.ofList (cs.take n))
  := by
  rw [utf8_of_lt h, utf8_of_lt fun c hc => h c (List.mem_of_mem_take hc), List.map_take]

/-- A number below 256 is that byte. -/
theorem toNat_ofNat_byte {n : Nat} (h : n < 256) :
  (UInt8.ofNat n).toNat = n
  := by
  rw [UInt8.toNat_ofNat', Nat.mod_eq_of_lt h]

/-- A byte of a character is the character itself, or one from 128 to 247. -/
theorem mem_utf8EncodeChar_cases {c : Char} {b : UInt8} (hb : b ∈ String.utf8EncodeChar c) :
  c.toNat < 128 ∧ b.toNat = c.toNat ∨ 128 ≤ b.toNat ∧ b.toNat < 248
  := by
  have longer : ∀ n, 128 ≤ n ∧ n < 248 → b = UInt8.ofNat n →
      c.toNat < 128 ∧ b.toNat = c.toNat ∨ 128 ≤ b.toNat ∧ b.toNat < 248 := by
    rintro n hn rfl
    right
    rwa [toNat_ofNat_byte (by omega)]
  simp only [String.utf8EncodeChar] at hb
  by_cases h : c.val.toNat ≤ 127
  · left
    rw [if_pos h] at hb
    rw [List.mem_singleton.mp hb, toNat_ofNat_byte (by omega)]
    exact ⟨Nat.lt_succ_of_le h, rfl⟩
  rw [if_neg h] at hb
  split at hb
  · simp only [List.mem_cons, List.not_mem_nil, or_false] at hb
    rcases hb with hb | hb <;> exact longer _ (by omega) hb
  split at hb
  · simp only [List.mem_cons, List.not_mem_nil, or_false] at hb
    rcases hb with hb | hb | hb <;> exact longer _ (by omega) hb
  · simp only [List.mem_cons, List.not_mem_nil, or_false] at hb
    rcases hb with hb | hb | hb | hb <;> exact longer _ (by omega) hb

/-- A byte below 128 is a character of its own. -/
theorem eq_of_mem_utf8EncodeChar {c : Char} {b : UInt8} (hb : b ∈ String.utf8EncodeChar c)
    (small : b.toNat < 128) :
  c.toNat = b.toNat
  := by
  obtain ⟨-, h⟩ | ⟨h, -⟩ := mem_utf8EncodeChar_cases hb
  · apply h.symm
  · omega

/-- The greatest byte of a text is below 248. -/
theorem lt_of_mem_utf8 {s : String} {b : UInt8} (hb : b ∈ utf8 s) :
  b.toNat < 248
  := by
  obtain ⟨c, -, hb⟩ := List.mem_flatMap.mp hb
  obtain ⟨h, hc⟩ | ⟨-, h⟩ := mem_utf8EncodeChar_cases hb
  · omega
  · apply h

/-- A text without a character below 128 has no such byte. -/
theorem notMem_utf8 {s : String} {c : Char} (hc : c ∉ s.toList) (small : c.toNat < 128) :
  UInt8.ofNat c.toNat ∉ utf8 s
  := by
  intro h
  obtain ⟨d, hd, hb⟩ := List.mem_flatMap.mp h
  have hn : (UInt8.ofNat c.toNat).toNat = c.toNat := toNat_ofNat_byte (by omega)
  have heq := eq_of_mem_utf8EncodeChar hb (by omega)
  rw [hn, Char.toNat_inj] at heq
  apply hc (heq ▸ hd)

/-- The bytes of a text are read as the text. -/
theorem ofUtf8?_utf8 (s : String) :
  ofUtf8? (utf8 s) = some s
  := by
  have hs : (⟨(utf8 s).toArray⟩ : ByteArray) = s.toByteArray := by
    rw [← String.utf8Encode_toList]
    apply ByteArray.ext
    rw [List.utf8Encode, List.data_toByteArray]
    rfl
  rw [ofUtf8?, hs, String.fromUTF8?, dif_pos s.isValidUTF8]
  rfl

/-- Texts are told apart by their bytes. -/
theorem utf8_inj {s t : String} (h : utf8 s = utf8 t) :
  s = t
  := by
  apply Option.some.inj
  rw [← ofUtf8?_utf8 s, h, ofUtf8?_utf8]

/-! ### Text that is not damaged -/

namespace Sequence

variable {n : Nat}

/-- The first of two bytes. -/
theorem start_two (least : 2 ≤ n) (most : n < 32) :
  start (n + 192) = (⟨1, 0x80, 0xBF, n⟩, [])
  := by
  have h0 : ¬ n + 192 < 0x80 := by omega
  have h1 : 0xC2 ≤ n + 192 ∧ n + 192 ≤ 0xDF := by omega
  rw [start, if_neg h0, if_pos h1, Nat.add_sub_cancel]

/-- The first of three bytes. -/
theorem start_three (most : n < 16) :
  start (n + 224) =
    (⟨2, if n = 0 then 0xA0 else 0x80, if n = 13 then 0x9F else 0xBF, n⟩, [])
  := by
  have h0 : ¬ n + 224 < 0x80 := by omega
  have h1 : ¬ (0xC2 ≤ n + 224 ∧ n + 224 ≤ 0xDF) := by omega
  have h2 : 0xE0 ≤ n + 224 ∧ n + 224 ≤ 0xEF := by omega
  simp only [start, if_neg h0, if_neg h1, if_pos h2, Nat.add_sub_cancel, Nat.add_eq_right,
    Nat.reduceEqDiff]

/-- The first of four bytes. -/
theorem start_four (most : n < 5) :
  start (n + 240) =
    (⟨3, if n = 0 then 0x90 else 0x80, if n = 4 then 0x8F else 0xBF, n⟩, [])
  := by
  have h0 : ¬ n + 240 < 0x80 := by omega
  have h1 : ¬ (0xC2 ≤ n + 240 ∧ n + 240 ≤ 0xDF) := by omega
  have h2 : ¬ (0xE0 ≤ n + 240 ∧ n + 240 ≤ 0xEF) := by omega
  have h3 : 0xF0 ≤ n + 240 ∧ n + 240 ≤ 0xF4 := by omega
  simp only [start, if_neg h0, if_neg h1, if_neg h2, if_pos h3, Nat.add_sub_cancel,
    Nat.add_eq_right, Nat.reduceEqDiff]

end Sequence

section

variable {b : UInt8} {low high value : Nat}

/-- A byte that goes on with a character that needs more than it. -/
theorem utf8Lossy_next {needed : Nat} (hb : low ≤ b.toNat ∧ b.toNat ≤ high)
    (rest : List UInt8) :
  utf8Lossy ⟨needed + 2, low, high, value⟩ (b :: rest) =
    utf8Lossy ⟨needed + 1, 0x80, 0xBF, value * 64 + (b.toNat - 0x80)⟩ rest
  := by
  have h1 : needed + 2 ≠ 0 := by omega
  have h2 : needed + 2 ≠ 1 := by omega
  simp only [utf8Lossy, Sequence.step, if_neg h1, if_pos hb, if_neg h2]
  rfl

/-- The last byte of a character. -/
theorem utf8Lossy_last (hb : low ≤ b.toNat ∧ b.toNat ≤ high) (rest : List UInt8) :
  utf8Lossy ⟨1, low, high, value⟩ (b :: rest) =
    Char.ofNat (value * 64 + (b.toNat - 0x80)) :: utf8Lossy .none rest
  := by
  simp only [utf8Lossy, Sequence.step, if_neg Nat.one_ne_zero, if_pos hb]
  rfl

end

/-- The bytes of a character are read as the character, by a reader that is between two. -/
theorem utf8Lossy_utf8EncodeChar (c : Char) (rest : List UInt8) :
  utf8Lossy .none (String.utf8EncodeChar c ++ rest) = c :: utf8Lossy .none rest
  := by
  have first : ∀ n, n < 256 → ∀ bs, utf8Lossy .none (UInt8.ofNat n :: bs) =
      (Sequence.start n).2 ++ utf8Lossy (Sequence.start n).1 bs := by
    intro n hn bs
    simp only [utf8Lossy, toNat_ofNat_byte hn]
    rfl
  have valid : c.val.toNat < 0xD800 ∨ 0xDFFF < c.val.toNat ∧ c.val.toNat < 0x110000 := c.valid
  have hc : ∀ n, n = c.val.toNat → Char.ofNat n = c := by
    rintro _ rfl
    apply Char.ofNat_toNat
  simp only [String.utf8EncodeChar]
  generalize c.val.toNat = v at valid hc
  have last : (UInt8.ofNat (v % 64 + 128)).toNat = v % 64 + 128 := toNat_ofNat_byte (by omega)
  have second : (UInt8.ofNat (v / 64 % 64 + 128)).toNat = v / 64 % 64 + 128 :=
    toNat_ofNat_byte (by omega)
  have third : (UInt8.ofNat (v / 4096 % 64 + 128)).toNat = v / 4096 % 64 + 128 :=
    toNat_ofNat_byte (by omega)
  by_cases h1 : v ≤ 127
  · have hs : Sequence.start v = (.none, [Char.ofNat v]) := by
      rw [Sequence.start, if_pos (by omega)]
    rw [if_pos h1, List.singleton_append, first v (by omega), hs, hc v rfl]
    rfl
  rw [if_neg h1]
  by_cases h2 : v ≤ 2047
  · rw [if_pos h2, List.cons_append, List.singleton_append, first _ (by omega),
      Sequence.start_two (by omega) (by omega), utf8Lossy_last (by omega), hc _ (by omega)]
    rfl
  rw [if_neg h2]
  by_cases h3 : v ≤ 65535
  · rw [if_pos h3, List.cons_append, List.cons_append, List.singleton_append,
      first _ (by omega), Sequence.start_three (by omega), utf8Lossy_next,
      utf8Lossy_last (by omega), hc _ (by omega)]
    · rfl
    · split <;> split <;> omega
  · rw [if_neg h3, List.cons_append, List.cons_append, List.cons_append, List.singleton_append,
      first _ (by omega), Sequence.start_four (by omega), utf8Lossy_next, utf8Lossy_next (by omega),
      utf8Lossy_last (by omega), hc _ (by omega)]
    · rfl
    · split <;> split <;> omega

/-- The bytes of a text are read as its characters. -/
theorem utf8Lossy_utf8 (s : String) :
  utf8Lossy .none (utf8 s) = s.toList
  := by
  have h : ∀ cs : List Char, utf8Lossy .none (cs.flatMap String.utf8EncodeChar) = cs := by
    intro cs
    induction cs with
    | nil => rfl
    | cons c cs ih => rw [List.flatMap_cons, utf8Lossy_utf8EncodeChar, ih]
  apply h

/-- The character whose bytes are the byte order mark. -/
def byteOrderMark : Char := '\ufeff'

/-- A text that no byte order mark stands before is read from its bytes as it is. -/
theorem ofBytesLossy_utf8 {s : String} (unmarked : s.toList.head? ≠ some byteOrderMark) :
  ofBytesLossy (utf8 s) = s
  := by
  have plain : String.ofList (utf8Lossy .none (utf8 s)) = s := by
    rw [utf8Lossy_utf8, String.ofList_toList]
  rw [ofBytesLossy.eq_def]
  split
  next rest h =>
    exfalso
    have hmark : (0xEF :: 0xBB :: 0xBF :: rest) = String.utf8EncodeChar byteOrderMark ++ rest :=
      rfl
    have hs := utf8Lossy_utf8 s
    rw [h, hmark, utf8Lossy_utf8EncodeChar] at hs
    apply unmarked
    rw [← hs]
    rfl
  -- the marks of the other encodings begin with bytes that no text has
  next rest h =>
    exfalso
    have := lt_of_mem_utf8 (h ▸ List.mem_cons_self : (0xFF : UInt8) ∈ utf8 s)
    contradiction
  next rest h =>
    exfalso
    have := lt_of_mem_utf8 (h ▸ List.mem_cons_self : (0xFE : UInt8) ∈ utf8 s)
    contradiction
  next => apply plain

end ApiIntake.Text
