import ApiIntake.Json.Basic
import ApiIntake.Decimal.Shortest
import ApiIntake.Text.Hex

/-!
# Compact JSON text

Values written without blanks: members in the order of the object, strings with
only the quote, the backslash and the control characters below the space escaped,
floating-point numbers with the fewest digits and a signed power of ten.
-/

namespace ApiIntake

namespace Json

/-- How a character stands inside a quoted string. -/
def escapeChar (c : Char) : List Char :=
  if c = '"' then ['\\', '"']
  else if c = '\\' then ['\\', '\\']
  else if 32 ≤ c.toNat then [c]
  else if c = '\n' then ['\\', 'n']
  else if c = '\r' then ['\\', 'r']
  else if c = '\t' then ['\\', 't']
  else if c = '\x08' then ['\\', 'b']
  else if c = '\x0c' then ['\\', 'f']
  else ['\\', 'u', '0', '0', Text.hexDigit (c.toNat / 16), Text.hexDigit (c.toNat % 16)]

/-- A string between quotes. -/
def quote (s : String) : List Char :=
  '"' :: s.toList.flatMap escapeChar ++ ['"']

/-- The decimal text of a whole number. -/
def intText (n : Int) : List Char :=
  if n < 0 then '-' :: Binary64.digitText n.natAbs else Binary64.digitText n.natAbs

/-- Powers of ten carry a sign of either kind. -/
def floatStyle : Binary64.PowerStyle := ⟨true⟩

mutual

/-- The compact text of a value. -/
def chars : Json → List Char
  | .null => ['n', 'u', 'l', 'l']
  | .bool true => ['t', 'r', 'u', 'e']
  | .bool false => ['f', 'a', 'l', 's', 'e']
  | .int n => intText n
  | .float x => x.text floatStyle
  | .str s => quote s
  | .arr [] => ['[', ']']
  | .arr (v :: rest) => '[' :: v.chars ++ itemChars rest
  | .obj [] => ['\x7b', '\x7d']
  | .obj ((k, v) :: rest) => '\x7b' :: quote k ++ ':' :: v.chars ++ memberChars rest

/-- The items after the first one, and the closing bracket. -/
def itemChars : List Json → List Char
  | [] => [']']
  | v :: rest => ',' :: v.chars ++ itemChars rest

/-- The members after the first one, and the closing brace. -/
def memberChars : List (String × Json) → List Char
  | [] => ['\x7d']
  | (k, v) :: rest => ',' :: quote k ++ ':' :: v.chars ++ memberChars rest

end

/-- The compact text of a value. -/
def compact (v : Json) : String := String.ofList v.chars

example : compact (.obj [("a", .arr [.int (-3), .str "x\ny"]), ("b", .obj [])]) =
    "\x7b\"a\":[-3,\"x\\ny\"],\"b\":\x7b\x7d\x7d" := by
  decide +kernel

end Json

end ApiIntake
