/-!
# Binary floating-point values

A finite value of the 64-bit binary format, held exactly as a sign, a whole
significand `m` and a power `q` of two, so that it stands for `±m · 2 ^ q`; the
value nearest to a positive fraction, where a tie goes to the even significand;
and the value nearest to a decimal `d · 10 ^ e`.
-/

namespace ApiIntake

/-- A finite 64-bit value `±m · 2 ^ q`.  What `Binary64.ofRatio?` builds is in the
form of the format: either `2 ^ 52 ≤ m < 2 ^ 53`, or `m < 2 ^ 52` and
`q = -1074`. -/
structure Binary64 where
  /-- The value carries a minus sign; zero has one too. -/
  negative : Bool
  /-- The significand. -/
  m : Nat
  /-- The power of two that scales the significand. -/
  q : Int
deriving DecidableEq, Repr, Inhabited

namespace Binary64

/-- Zero with the given sign. -/
def zero (negative : Bool) : Binary64 := ⟨negative, 0, -1074⟩

/-- The whole number nearest to `num / den`, a tie going to the even neighbour. -/
def roundHalfEven (num den : Nat) : Nat :=
  let whole := num / den
  let rest := num % den
  if 2 * rest < den then whole
  else if den < 2 * rest then whole + 1
  else if whole % 2 = 0 then whole else whole + 1

/-- Whether `2 ^ e ≤ num / den`. -/
def twoPowLe (e : Int) (num den : Nat) : Bool :=
  den * Nat.pow 2 e.toNat ≤ num * Nat.pow 2 (-e).toNat

/-- The value nearest to the positive fraction `num / den`, or `none` beyond the
greatest finite value. -/
def ofRatio? (negative : Bool) (num den : Nat) : Option Binary64 :=
  let e : Int := (Nat.log2 num : Int) - Nat.log2 den
  -- the leading binary digit of the fraction stands at `e` or just below it
  let lead := if twoPowLe e num den then e else e - 1
  let q := max (lead - 52) (-1074)
  let m := roundHalfEven (num * Nat.pow 2 (-q).toNat) (den * Nat.pow 2 q.toNat)
  let (m, q) := if m = 0x20000000000000 then (0x10000000000000, q + 1) else (m, q)
  if q ≤ 971 then some ⟨negative, m, q⟩ else none

/-- The value nearest to `±digits · 10 ^ e`, or `none` beyond the greatest finite
value. -/
def ofDecimal? (negative : Bool) (digits : Nat) (e : Int) : Option Binary64 :=
  if digits = 0 then some (zero negative)
  else
    let size : Int := Nat.log2 digits
    -- far outside the range of the format the power of ten is not worked out
    if 1100 < size + 3 * e ∧ 0 ≤ e then none
    else if size + 3 * e < -1100 ∧ e < 0 then some (zero negative)
    else ofRatio? negative (digits * Nat.pow 10 e.toNat) (Nat.pow 10 (-e).toNat)

/-- The value nearest to a whole number. -/
def ofInt? (n : Int) : Option Binary64 := ofDecimal? (n < 0) n.natAbs 0

/-- Whether two values are equal as numbers: the two zeros are. -/
def sameNumber (x y : Binary64) : Bool :=
  x = y || (x.m = 0 && y.m = 0)

example : ofDecimal? false 1 (-1) = some ⟨false, 0x1999999999999a, -56⟩ := by decide +kernel

example : ofDecimal? false 9007199254740993 0 = some ⟨false, 0x10000000000000, 1⟩ := by
  decide +kernel

example : ofDecimal? false 1 309 = none := by decide +kernel

end Binary64

end ApiIntake
