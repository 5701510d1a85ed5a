import ApiIntake.Text.Hex

/-!
# Percent-encoded text

In a path a byte may be written as a percent sign and two hexadecimal digits.  A
percent sign without two digits behind it stands for itself.
-/

namespace ApiIntake.Text

/-- The bytes that a percent-encoded text stands for. -/
def percentDecode : List UInt8 → List UInt8
  | [] => []
  | b :: rest =>
    if b = '%'.toUInt8 then
      match rest with
      | high :: low :: rest' =>
        match hexValue? (Char.ofNat high.toNat), hexValue? (Char.ofNat low.toNat) with
        | some h, some l => UInt8.ofNat (h * 16 + l) :: percentDecode rest'
        | _, _ => b :: percentDecode (high :: low :: rest')
      | rest' => b :: percentDecode rest'
    else b :: percentDecode rest

end ApiIntake.Text
