import ApiIntake.Json.Basic
import ApiIntake.Text.Hex
import ApiIntake.Text.Digits

/-!
# Reading JSON text

One value between optional blanks, and nothing behind it.  Whole numbers up to the
unsigned 64-bit range (down to the signed one) are read as such, all others as
floating-point ones; a number beyond the floating-point range, a lone surrogate
escape, a control character inside a string and nesting over 127 levels are
refused.  Members keep their order, repeated keys included.
-/

namespace ApiIntake

namespace Json

/-- Drops blanks: space, tab, line feed and carriage return. -/
def skipBlanks : List Char → List Char
  | [] => []
  | c :: cs => if c = ' ' ∨ c = '\t' ∨ c = '\n' ∨ c = '\r' then skipBlanks cs else c :: cs

/-- Four hexadecimal digits as one number. -/
def hexQuad? : List Char → Option (Nat × List Char)
  | a :: b :: c :: d :: rest => do
    let a ← Text.hexValue? a
    let b ← Text.hexValue? b
    let c ← Text.hexValue? c
    let d ← Text.hexValue? d
    some (((a * 16 + b) * 16 + c) * 16 + d, rest)
  | _ => none

/-- The character that a `\u` escape stands for; one of a pair of surrogates needs
the escape of the other behind it. -/
def unicodeEscape? (cs : List Char) : Option (Char × List Char) := do
  let (n, rest) ← hexQuad? cs
  if 0xD800 ≤ n ∧ n < 0xDC00 then
    match rest with
    | '\\' :: 'u' :: rest =>
      let (low, rest) ← hexQuad? rest
      if 0xDC00 ≤ low ∧ low < 0xE000 then
        some (Char.ofNat (0x10000 + (n - 0xD800) * 0x400 + (low - 0xDC00)), rest)
      else none
    | _ => none
  else if 0xDC00 ≤ n ∧ n < 0xE000 then none
  else some (Char.ofNat n, rest)

/-- The character behind a backslash. -/
def simpleEscape? : Char → Option Char
  | '"' => some '"'
  | '\\' => some '\\'
  | '/' => some '/'
  | 'b' => some '\x08'
  | 'f' => some '\x0c'
  | 'n' => some '\n'
  | 'r' => some '\r'
  | 't' => some '\t'
  | _ => none

/-- The characters up to the closing quote, and what follows it.  `fuel` bounds the
number of characters. -/
def stringChars? : Nat → List Char → Option (List Char × List Char)
  | 0, _ => none
  | fuel + 1, cs =>
    match cs with
    | [] => none
    | '"' :: rest => some ([], rest)
    | '\\' :: 'u' :: rest => do
      let (c, rest) ← unicodeEscape? rest
      let (s, rest) ← stringChars? fuel rest
      some (c :: s, rest)
    | '\\' :: e :: rest => do
      let c ← simpleEscape? e
      let (s, rest) ← stringChars? fuel rest
      some (c :: s, rest)
    | c :: rest =>
      if c = '\\' ∨ c.toNat < 32 then none
      else do
        let (s, rest) ← stringChars? fuel rest
        some (c :: s, rest)

/-- The signed power of ten behind an `e`. -/
def exponent? (cs : List Char) : Option (Int × List Char) :=
  let (minus, cs) := match cs with
    | '-' :: r => (true, r)
    | '+' :: r => (false, r)
    | r => (false, r)
  match cs.span Char.isDigit with
  | ([], _) => none
  | (ds, rest) =>
    let n : Int := Text.digitsValue ds
    some (if minus then -n else n, rest)

/-- The value of a number from its sign, the digits before and behind the point,
and its power of ten. -/
def numberOf? (minus : Bool) (whole frac : List Char) (isWhole : Bool) (e : Int) : Option Json :=
  let n := Text.digitsValue whole
  let digits := Text.digitsValue (whole ++ frac)
  let asFloat := (Binary64.ofDecimal? minus digits (e - frac.length)).map Json.float
  if isWhole then
    if minus then
      if 0 < n ∧ n ≤ 0x8000000000000000 then some (.int (-(n : Int))) else asFloat
    else if n < 0x10000000000000000 then some (.int n)
    else asFloat
  else asFloat

/-- A number of which the sign and the digits before the point were read: no leading zeros, a
digit behind a point. -/
def numberFrom? (minus : Bool) (whole rest : List Char) : Option (Json × List Char) :=
  match whole with
  | [] => none
  | '0' :: _ :: _ => none
  | _ =>
    let (point, frac, rest) := match rest with
      | '.' :: r => let (ds, r) := r.span Char.isDigit; (true, ds, r)
      | r => (false, [], r)
    if point ∧ frac = [] then none
    else match rest with
      | 'e' :: r | 'E' :: r => do
        let (e, r) ← exponent? r
        let v ← numberOf? minus whole frac false e
        some (v, r)
      | r => do
        let v ← numberOf? minus whole frac (!point) 0
        some (v, r)

/-- A number. -/
def number? (cs : List Char) : Option (Json × List Char) :=
  let (minus, cs) := match cs with
    | '-' :: r => (true, r)
    | r => (false, r)
  let (whole, rest) := cs.span Char.isDigit
  numberFrom? minus whole rest

/-- The greatest depth of nesting. -/
def depthLimit : Nat := 127

mutual

/-- One value behind optional blanks, and the rest of the text. -/
def value? : Nat → Nat → List Char → Option (Json × List Char)
  | 0, _, _ => none
  | fuel + 1, depth, cs =>
    match skipBlanks cs with
    | 'n' :: 'u' :: 'l' :: 'l' :: r => some (.null, r)
    | 't' :: 'r' :: 'u' :: 'e' :: r => some (.bool true, r)
    | 'f' :: 'a' :: 'l' :: 's' :: 'e' :: r => some (.bool false, r)
    | '"' :: r => do
      let (s, r) ← stringChars? (r.length + 1) r
      some (.str (String.ofList s), r)
    | '[' :: r =>
      if depth = 0 then none
      else match skipBlanks r with
        | ']' :: r => some (.arr [], r)
        | r => do
          let (items, r) ← items? fuel (depth - 1) r
          some (.arr items, r)
    | '\x7b' :: r =>
      if depth = 0 then none
      else match skipBlanks r with
        | '\x7d' :: r => some (.obj [], r)
        | r => do
          let (members, r) ← members? fuel (depth - 1) r
          some (.obj members, r)
    | r => number? r

/-- The items of an array up to its closing bracket. -/
def items? : Nat → Nat → List Char → Option (List Json × List Char)
  | 0, _, _ => none
  | fuel + 1, depth, cs => do
    let (v, r) ← value? fuel depth cs
    match skipBlanks r with
    | ',' :: r => do
      let (vs, r) ← items? fuel depth r
      some (v :: vs, r)
    | ']' :: r => some ([v], r)
    | _ => none

/-- The members of an object up to its closing brace. -/
def members? : Nat → Nat → List Char → Option (List (String × Json) × List Char)
  | 0, _, _ => none
  | fuel + 1, depth, cs =>
    match skipBlanks cs with
    | '"' :: r => do
      let (k, r) ← stringChars? (r.length + 1) r
      match skipBlanks r with
      | ':' :: r => do
        let (v, r) ← value? fuel depth r
        match skipBlanks r with
        | ',' :: r => do
          let (ms, r) ← members? fuel depth r
          some ((String.ofList k, v) :: ms, r)
        | '\x7d' :: r => some ([(String.ofList k, v)], r)
        | _ => none
      | _ => none
    | _ => none

end

/-- The value that a text stands for, if it is the text of one. -/
def parse? (text : String) : Option Json :=
  let cs := text.toList
  match value? (2 * cs.length + 2) depthLimit cs with
  | some (v, rest) => if skipBlanks rest = [] then some v else none
  | none => none

end Json

end ApiIntake
