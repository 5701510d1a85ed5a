/-!
# Decimal digits

The number that ASCII digits stand for, and texts that are such a number.
-/

namespace ApiIntake.Text

/-- The number that decimal digits stand for. -/
def digitsValue (digits : List Char) : Nat :=
  digits.foldl (fun n d => n * 10 + (d.toNat - 48)) 0

/-- The number that a text stands for, which has to hold digits and nothing else. -/
def natural? (cs : List Char) : Option Nat :=
  if cs.isEmpty || !cs.all Char.isDigit then none else some (digitsValue cs)

/-- `natural?` with at most one plus sign before the digits. -/
def signedNatural? : List Char → Option Nat
  | '+' :: digits => natural? digits
  | cs => natural? cs

example : signedNatural? "+0042".toList = some 42 := by decide +kernel

end ApiIntake.Text
