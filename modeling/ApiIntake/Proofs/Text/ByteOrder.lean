import ApiIntake.Proofs.Text.Utf8
import Mathlib.Algebra.GroupWithZero.Nat
import Mathlib.Tactic.SplitIfs

/-!
# The order of bytes

Texts have the order of their characters, and that is the order of their bytes
(`utf8_lt`).  Of characters with as many bytes the lesser one has the lesser bytes
(`leading_append_lt`), and a longer character begins with a greater byte.
-/

namespace ApiIntake.Text

/-- A number below a byte comes before a greater one, and before itself if the rest comes
first. -/
theorem ofNat_cons_lt {m n : Nat} {as bs : List UInt8} (hn : n < 256)
    (h : m < n ∨ m = n ∧ as < bs) :
  UInt8.ofNat m :: as < UInt8.ofNat n :: bs
  := by
  apply List.cons_lt_cons_iff.mpr
  obtain h | ⟨rfl, h⟩ := h
  · left
    rwa [UInt8.lt_iff_toNat_lt, toNat_ofNat_byte (by omega), toNat_ofNat_byte hn]
  · right
    exact ⟨rfl, h⟩

/-- The bytes behind the first one of a character: six bits of its number each. -/
def trailing (n : Nat) : Nat → List UInt8
  | 0 => []
  | k + 1 => UInt8.ofNat (n / 64 ^ k % 64 + 128) :: trailing n k

/-- Of numbers that agree in front of them, the lesser one has the lesser trailing bytes. -/
theorem trailing_append_lt {m n k : Nat} (h : m % 64 ^ k < n % 64 ^ k) (as bs : List UInt8) :
  trailing m k ++ as < trailing n k ++ bs
  := by
  induction k with
  | zero => omega
  | succ k ih =>
      rw [Nat.mod_pow_succ, Nat.mod_pow_succ] at h
      have hm : m % 64 ^ k < 64 ^ k := Nat.mod_lt _ (Nat.pow_pos (by decide))
      have hn : n % 64 ^ k < 64 ^ k := Nat.mod_lt _ (Nat.pow_pos (by decide))
      apply ofNat_cons_lt (by omega)
      obtain hlt | heq | hgt := Nat.lt_trichotomy (m / 64 ^ k % 64) (n / 64 ^ k % 64)
      · left
        omega
      · right
        rw [heq] at h
        exact ⟨by omega, ih (by omega)⟩
      · have hle := Nat.mul_le_mul_left (64 ^ k) hgt
        rw [Nat.mul_succ] at hle
        omega

/-- Of numbers with as many trailing bytes, the lesser one has the lesser bytes. -/
theorem leading_append_lt {m n : Nat} (k width mark : Nat) (h : m < n) (hn : n / 64 ^ k < width)
    (hmark : width + mark ≤ 256) (as bs : List UInt8) :
  UInt8.ofNat (m / 64 ^ k % width + mark) :: (trailing m k ++ as) <
    UInt8.ofNat (n / 64 ^ k % width + mark) :: (trailing n k ++ bs)
  := by
  have hle : m / 64 ^ k ≤ n / 64 ^ k := Nat.div_le_div_right (Nat.le_of_lt h)
  rw [Nat.mod_eq_of_lt hn, Nat.mod_eq_of_lt (Nat.lt_of_le_of_lt hle hn)]
  apply ofNat_cons_lt (by omega)
  obtain hlt | heq := Nat.lt_or_eq_of_le hle
  · left
    omega
  · right
    constructor
    · rw [heq]
    · apply trailing_append_lt
      have hm := Nat.div_add_mod m (64 ^ k)
      have hn := Nat.div_add_mod n (64 ^ k)
      rw [heq] at hm
      omega

/-- The bytes of a lesser character come first, whatever stands behind them. -/
theorem utf8EncodeChar_append_lt {c d : Char} (h : c < d) (as bs : List UInt8) :
  String.utf8EncodeChar c ++ as < String.utf8EncodeChar d ++ bs
  := by
  have hlt : c.val.toNat < d.val.toNat := UInt32.lt_iff_toNat_lt.mp h
  have hmax : d.val.toNat < 0x110000 := by
    obtain hd | ⟨-, hd⟩ := d.valid
    · exact Nat.lt_trans hd (by decide)
    · exact hd
  simp only [String.utf8EncodeChar]
  generalize c.val.toNat = m at *
  generalize d.val.toNat = n at *
  -- characters of as many bytes, or a longer one whose first byte is greater
  by_cases hm₁ : m ≤ 127
  · rw [if_pos hm₁]
    split_ifs <;> apply ofNat_cons_lt <;> omega
  rw [if_neg hm₁, if_neg (show ¬ n ≤ 127 by omega)]
  by_cases hm₂ : m ≤ 2047
  · rw [if_pos hm₂]
    split_ifs
    · simpa [trailing] using leading_append_lt 1 32 192 hlt (by omega) (by decide) as bs
    · apply ofNat_cons_lt <;> omega
    · apply ofNat_cons_lt <;> omega
  rw [if_neg hm₂, if_neg (show ¬ n ≤ 2047 by omega)]
  by_cases hm₃ : m ≤ 65535
  · rw [if_pos hm₃]
    split_ifs
    · simpa [trailing] using leading_append_lt 2 16 224 hlt (by omega) (by decide) as bs
    · apply ofNat_cons_lt <;> omega
  rw [if_neg hm₃, if_neg (show ¬ n ≤ 65535 by omega)]
  simpa [trailing] using leading_append_lt 3 8 240 hlt (by omega) (by decide) as bs

/-- Characters have the order of their bytes. -/
theorem flatMap_lt {cs ds : List Char} (h : cs < ds) :
  cs.flatMap String.utf8EncodeChar < ds.flatMap String.utf8EncodeChar
  := by
  induction h with
  | @nil d ds =>
      rw [List.flatMap_nil, List.flatMap_cons]
      cases hd : String.utf8EncodeChar d with
      | nil => apply absurd hd String.utf8EncodeChar_ne_nil
      | cons b bs => apply List.Lex.nil
  | rel h => apply utf8EncodeChar_append_lt h
  | cons _ ih => apply List.append_left_lt ih

/-- Texts have the order of their bytes. -/
theorem utf8_lt {s t : String} (h : s < t) :
  utf8 s < utf8 t
  := by
  apply flatMap_lt (String.lt_iff.mp h)

end ApiIntake.Text
