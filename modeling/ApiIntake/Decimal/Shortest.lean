import ApiIntake.Decimal.Binary64

/-!
# Shortest decimal text

The fewest decimal digits that still round to a given 64-bit value, and of those
the nearest to it.  The reals that round to a value form an interval around it,
whose ends belong to it exactly when the significand is even; a grid of decimals
is tried for one digit, two digits, and so on, and on each grid only the two
neighbours of the value can lie nearest.  Layout is a separate step: positional
between `10 ^ -5` and `10 ^ 16`, with a power of ten outside.
-/

namespace ApiIntake

namespace Binary64

/-- A decimal `digits · 10 ^ exponent`. -/
structure Decimal where
  /-- The digits as one whole number. -/
  digits : Nat
  /-- The power of ten that scales them. -/
  exponent : Int
deriving DecidableEq, Repr

/-- Compares `a · 10 ^ i` with `n · 2 ^ j`, exactly. -/
def compareScaled (a : Nat) (i : Int) (n : Nat) (j : Int) : Ordering :=
  compare (a * Nat.pow 10 i.toNat * Nat.pow 2 (-j).toNat)
    (n * Nat.pow 2 j.toNat * Nat.pow 10 (-i).toNat)

/-- Whether the decimal rounds to the magnitude of `x`.  Below a power of two the
gap to the next value is half as wide. -/
def roundsFrom (x : Binary64) (d : Decimal) : Bool :=
  let narrow := x.m = 0x10000000000000 && x.q ≠ -1074
  let low := if narrow then 4 * x.m - 1 else 4 * x.m - 2
  let high := 4 * x.m + 2
  let closed := x.m % 2 = 0
  let above := compareScaled d.digits d.exponent low (x.q - 2)
  let below := compareScaled d.digits d.exponent high (x.q - 2)
  (above == .gt || (closed && above == .eq)) && (below == .lt || (closed && below == .eq))

/-- The least `k` with `m · 2 ^ q < 10 ^ k`, searched upwards from a lower bound. -/
def decimalPoint (x : Binary64) : Int :=
  let bits : Int := Nat.log2 x.m + x.q
  let start : Int := bits * 301 / 1000 - 1
  go start 6
where
  /-- Climbs until the power of ten is greater; a few steps are enough. -/
  go (k : Int) : Nat → Int
    | 0 => k
    | steps + 1 => if compareScaled 1 k x.m x.q == .gt then k else go (k + 1) steps

/-- The nearest decimal on the grid of step `10 ^ e` that rounds to `x`, if one
does; of two equally near ones the even one. -/
def onGrid? (x : Binary64) (e : Int) : Option Decimal :=
  let num := x.m * Nat.pow 2 x.q.toNat * Nat.pow 10 (-e).toNat
  let den := Nat.pow 2 (-x.q).toNat * Nat.pow 10 e.toNat
  let below : Decimal := ⟨num / den, e⟩
  let above : Decimal := ⟨num / den + 1, e⟩
  match x.roundsFrom below, x.roundsFrom above with
  | true, true => some ⟨roundHalfEven num den, e⟩
  | true, false => some below
  | false, true => some above
  | false, false => none

/-- Moves trailing zeros of the digits into the exponent. -/
def Decimal.strip (d : Decimal) : Nat → Decimal
  | 0 => d
  | n + 1 =>
    if d.digits ≠ 0 ∧ d.digits % 10 = 0 then Decimal.strip ⟨d.digits / 10, d.exponent + 1⟩ n else d

/-- The shortest decimal that rounds to the magnitude of a nonzero value.  Seventeen
digits always suffice; the exact value stands in where a search would fail. -/
def shortest (x : Binary64) : Decimal :=
  let point := x.decimalPoint
  match (List.range 17).findSome? (fun (n : Nat) => x.onGrid? (point - ((n : Int) + 1))) with
  | some d => d.strip 20
  | none => ⟨x.m * Nat.pow 2 x.q.toNat * Nat.pow 5 (-x.q).toNat, min x.q 0⟩

/-- How a power of ten is written behind the digits. -/
structure PowerStyle where
  /-- A positive power carries a plus sign. -/
  plus : Bool

/-- The decimal digits of a whole number. -/
def digitText (n : Nat) : List Char := Nat.toDigits 10 n

/-- The text of a decimal: positional when its leading digit stands between the
fifth place behind the point and the sixteenth before it, otherwise one digit,
the others behind a point, and a power of ten. -/
def Decimal.text (f : PowerStyle) (d : Decimal) : List Char :=
  let ds := digitText d.digits
  let point : Int := ds.length + d.exponent
  if 0 ≤ d.exponent ∧ point ≤ 16 then
    ds ++ List.replicate d.exponent.toNat '0' ++ ['.', '0']
  else if 0 < point ∧ point ≤ 16 then
    ds.take point.toNat ++ '.' :: ds.drop point.toNat
  else if -5 < point ∧ point ≤ 0 then
    '0' :: '.' :: List.replicate (-point).toNat '0' ++ ds
  else
    let power := point - 1
    let sign := if power < 0 then ['-'] else if f.plus then ['+'] else []
    let mark := 'e' :: sign ++ digitText power.natAbs
    match ds with
    | [d] => d :: mark
    | d :: rest => d :: '.' :: rest ++ mark
    | [] => mark

/-- The shortest text of a value; a zero is `0.0`, with its sign. -/
def text (f : PowerStyle) (x : Binary64) : List Char :=
  let body := if x.m = 0 then ['0', '.', '0'] else x.shortest.text f
  if x.negative then '-' :: body else body

example : (ofDecimal? false 1 (-1)).map (text ⟨true⟩) = some "0.1".toList := by decide +kernel

example : (ofDecimal? false 5 (-324)).map (text ⟨false⟩) = some "5e-324".toList := by decide +kernel

end Binary64

end ApiIntake
