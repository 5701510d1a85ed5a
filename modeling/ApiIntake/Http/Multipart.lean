import ApiIntake.Text.Lossy
import ApiIntake.Text.Percent

/-!
# Forms in parts

A form is a sequence of parts between boundary lines.  A part has header lines, an
empty line and data; its name stands in its `Content-Disposition` header.  What stands
before the first boundary and behind the last is passed over.

A form may be broken: `readParts` gives the parts that were whole and what went wrong
behind them.
-/

namespace ApiIntake.Http

/-- A part of a form. -/
structure Part where
  /-- The name, if it has one. -/
  name : Option String
  /-- The data. -/
  data : List UInt8
deriving DecidableEq, Repr

/-- What is wrong with a form. -/
inductive FormError where
  /-- It is longer than allowed. -/
  | tooLarge
  /-- It ends too early, or a boundary is not followed by a line end. -/
  | incomplete
  /-- The header lines of a part cannot be read. -/
  | badHeaders
  /-- The data of a part is not followed by a boundary. -/
  | cutOff (name : Option String)
deriving DecidableEq, Repr

namespace FormError

/-- A character as it stands in quotes: behind a backslash if it is a quote or a
backslash itself, by a letter or its number if it is a control character. -/
def escaped (c : Char) : List Char :=
  if c = '"' ∨ c = '\\' then ['\\', c]
  else if c = '\t' then ['\\', 't']
  else if c = '\r' then ['\\', 'r']
  else if c = '\n' then ['\\', 'n']
  else if c = '\x00' then ['\\', '0']
  else if c.toNat < 0x20 ∨ (0x7F ≤ c.toNat ∧ c.toNat < 0xA0) then
    ['\\', 'u', '\x7b'] ++ Nat.toDigits 16 c.toNat ++ ['\x7d']
  else [c]

/-- A name in quotes. -/
def quote (name : String) : String := "\"" ++ String.ofList (name.toList.flatMap escaped) ++ "\""

/-- The text of an error. -/
def message : FormError → String
  | .tooLarge => "Request payload is too large"
  | .incomplete => "incomplete multipart stream"
  | .badHeaders => "failed to read headers"
  | .cutOff name => "field " ++ quote (name.getD "<unknown>") ++ " received with incomplete data"

/-- The status code of the response to a form with the error. -/
def status : FormError → Nat
  | .tooLarge => 413
  | _ => 400

end FormError

namespace Multipart

/-- The bytes of a line end. -/
def lineEnd : List UInt8 := [13, 10]

/-- The two hyphens before a boundary and behind the last one. -/
def hyphens : List UInt8 := [45, 45]

/-- The bytes before the first occurrence of a mark, and those behind it. -/
def cut? (mark : List UInt8) : List UInt8 → Option (List UInt8 × List UInt8)
  | [] => if mark.isEmpty then some ([], []) else none
  | b :: bs =>
    if mark.isPrefixOf (b :: bs) then some ([], (b :: bs).drop mark.length)
    else (cut? mark bs).map fun (before, rest) => (b :: before, rest)

/-! ## Headers -/

/-- Whether a byte may stand in the name of a header. -/
def isNameByte (b : UInt8) : Bool :=
  let c := Char.ofNat b.toNat
  b < 128 && (c.isAlphanum || "!#$%&'*+-.^_\x60|~".toList.contains c)

/-- Whether a byte may stand in the value of a header. -/
def isValueByte (b : UInt8) : Bool := b = 9 || (32 ≤ b && b ≠ 127)

/-- Whether a byte is a space or a tab. -/
def isGap (b : UInt8) : Bool := b = 32 || b = 9

/-- Drops gaps from both ends. -/
def trimGaps (bytes : List UInt8) : List UInt8 :=
  ((bytes.dropWhile isGap).reverse.dropWhile isGap).reverse

/-- A header line without its end: a name, a colon and a value. -/
def headerLine? (line : List UInt8) : Option (List UInt8 × List UInt8) :=
  let name := line.takeWhile isNameByte
  match line.drop name.length with
  | 58 :: value =>
    if !name.isEmpty && value.all isValueByte then some (name, trimGaps value) else none
  | _ => none

/-- The lines of a header block up to the first empty one; a line feed alone ends a line
as well. -/
def headerLines (block : List UInt8) : List (List UInt8) :=
  (block.splitOn 10).map (fun line => if line.getLast? = some 13 then line.dropLast else line)
    |>.takeWhile (!·.isEmpty)

/-- The most header lines that a part may have. -/
def maxHeaders : Nat := 32

/-- The headers of a block. -/
def headers? (block : List UInt8) : Option (List (List UInt8 × List UInt8)) := do
  let headers ← (headerLines block).mapM headerLine?
  if headers.length ≤ maxHeaders then some headers else none

/-- The value of the first header with a name, which is given in small letters. -/
def header? (headers : List (List UInt8 × List UInt8)) (name : String) : Option (List UInt8) :=
  let small (b : UInt8) : UInt8 := if 65 ≤ b ∧ b ≤ 90 then b + 32 else b
  (headers.find? fun h => h.1.map small = Text.utf8 name).map (·.2)

/-- The part of a header behind an attribute's name and equals sign; the name begins the
header, or follows a blank or a semicolon, or stands behind the end of another attribute's
name.  `before` is the byte before the rest. -/
def headerAttribute? (name : List UInt8) (before : Option UInt8) : List UInt8 → Option (List UInt8)
  | [] => none
  | b :: bs =>
    let begins := before.all fun c => c = 59 || c = 32 || (9 ≤ c && c ≤ 13 && c ≠ 11)
    if name.isPrefixOf (b :: bs) then
      if begins then some ((b :: bs).drop name.length)
      else headerAttribute? name none (bs.drop (name.length - 1))
    else headerAttribute? name (some b) bs
termination_by bytes => bytes.length
decreasing_by all_goals simp only [List.length_cons, List.length_drop]; omega

/-- The name in a `Content-Disposition` header: a quoted one as it stands, one without
quotes up to the next semicolon and percent-decoded. -/
def nameOf? (disposition : List UInt8) : Option String := do
  let value ← headerAttribute? (Text.utf8 "name=") none disposition
  match value with
  | 34 :: rest =>
    let name := rest.takeWhile (· ≠ 34)
    if name.length = rest.length then none else Text.ofUtf8? name
  | _ => Text.ofUtf8? (Text.percentDecode (value.takeWhile (· ≠ 59)))

/-! ## Parts -/

/-- The parts behind a boundary, and what is wrong with them.  `fuel` bounds their
number. -/
def partsBehind (boundary : List UInt8) : Nat → List UInt8 → List Part × Option FormError
  | 0, _ => ([], some .incomplete)
  | fuel + 1, bytes =>
    if hyphens.isPrefixOf bytes then ([], none)
    else
      let bytes := bytes.dropWhile isGap
      if !lineEnd.isPrefixOf bytes then ([], some .incomplete)
      else
        match cut? (lineEnd ++ lineEnd) (bytes.drop lineEnd.length) with
        | none => ([], some .incomplete)
        | some (block, rest) =>
          match headers? block with
          | none => ([], some .badHeaders)
          | some headers =>
            let name := (header? headers "content-disposition").bind nameOf?
            match cut? (lineEnd ++ hyphens ++ boundary) rest with
            | none => ([], some (.cutOff name))
            | some (data, rest) =>
              let (parts, wrong) := partsBehind boundary fuel rest
              (⟨name, data⟩ :: parts, wrong)

/-- The parts of a form with the given boundary that are whole, and what is wrong behind
them. -/
def readParts (boundary : String) (bytes : List UInt8) : List Part × Option FormError :=
  let boundary := Text.utf8 boundary
  match cut? (hyphens ++ boundary) bytes with
  | none => ([], some .incomplete)
  | some (_, rest) => partsBehind boundary (rest.length + 1) rest

end Multipart

end ApiIntake.Http
