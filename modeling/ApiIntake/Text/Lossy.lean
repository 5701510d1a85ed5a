import ApiIntake.Text.Utf8

/-!
# Reading text that may be damaged

A byte order mark decides how bytes are read and is no part of the text; without one
they are read as UTF-8.  What is no character becomes one replacement character for
each longest piece that begins like one.
-/

namespace ApiIntake.Text

/-- The character that stands for what cannot be read. -/
def replacement : Char := '\ufffd'

/-- A character of which some bytes were read: how many are still needed, the range of
the next one, and the value so far. -/
structure Sequence where
  /-- How many bytes are needed. -/
  needed : Nat
  /-- The least next byte. -/
  low : Nat
  /-- The greatest next byte. -/
  high : Nat
  /-- The value of the bits so far. -/
  value : Nat
deriving DecidableEq, Repr

namespace Sequence

/-- No byte was read. -/
def none : Sequence := ⟨0, 0x80, 0xBF, 0⟩

/-- Reads the first byte of a character. -/
def start (b : Nat) : Sequence × List Char :=
  if b < 0x80 then (none, [Char.ofNat b])
  else if 0xC2 ≤ b ∧ b ≤ 0xDF then (⟨1, 0x80, 0xBF, b - 0xC0⟩, [])
  else if 0xE0 ≤ b ∧ b ≤ 0xEF then
    (⟨2, if b = 0xE0 then 0xA0 else 0x80, if b = 0xED then 0x9F else 0xBF, b - 0xE0⟩, [])
  else if 0xF0 ≤ b ∧ b ≤ 0xF4 then
    (⟨3, if b = 0xF0 then 0x90 else 0x80, if b = 0xF4 then 0x8F else 0xBF, b - 0xF0⟩, [])
  else (none, [replacement])

/-- Reads a byte; one that does not go on with the character begins the next one. -/
def step (s : Sequence) (b : Nat) : Sequence × List Char :=
  if s.needed = 0 then start b
  else if s.low ≤ b ∧ b ≤ s.high then
    let value := s.value * 64 + (b - 0x80)
    if s.needed = 1 then (none, [Char.ofNat value]) else (⟨s.needed - 1, 0x80, 0xBF, value⟩, [])
  else
    let (s, out) := start b
    (s, replacement :: out)

end Sequence

/-- Reads UTF-8, given what was read of a character. -/
def utf8Lossy : Sequence → List UInt8 → List Char
  | s, [] => if s.needed = 0 then [] else [replacement]
  | s, b :: bs =>
    let (s, out) := s.step b.toNat
    out ++ utf8Lossy s bs

/-- The units of UTF-16 text, and whether a byte is left over. -/
def units16 (bigEndian : Bool) : List UInt8 → List Nat × Bool
  | a :: b :: rest =>
    let (units, odd) := units16 bigEndian rest
    ((if bigEndian then a.toNat * 256 + b.toNat else b.toNat * 256 + a.toNat) :: units, odd)
  | [_] => ([], true)
  | [] => ([], false)

/-- Reads UTF-16 units; a surrogate without its other half is no character. -/
def utf16Lossy : List Nat → List Char
  | [] => []
  | u :: rest =>
    if 0xD800 ≤ u ∧ u < 0xDC00 then
      match rest with
      | v :: rest' =>
        if 0xDC00 ≤ v ∧ v < 0xE000 then
          Char.ofNat (0x10000 + (u - 0xD800) * 0x400 + (v - 0xDC00)) :: utf16Lossy rest'
        else replacement :: utf16Lossy (v :: rest')
      | [] => [replacement]
    else if 0xDC00 ≤ u ∧ u < 0xE000 then replacement :: utf16Lossy rest
    else Char.ofNat u :: utf16Lossy rest

/-- Reads UTF-16 behind its byte order mark. -/
def utf16BytesLossy (bigEndian : Bool) (bytes : List UInt8) : List Char :=
  let (units, odd) := units16 bigEndian bytes
  utf16Lossy units ++ if odd then [replacement] else []

/-- The text that bytes stand for. -/
def ofBytesLossy : List UInt8 → String
  | 0xEF :: 0xBB :: 0xBF :: rest => String.ofList (utf8Lossy .none rest)
  | 0xFF :: 0xFE :: rest => String.ofList (utf16BytesLossy false rest)
  | 0xFE :: 0xFF :: rest => String.ofList (utf16BytesLossy true rest)
  | bytes => String.ofList (utf8Lossy .none bytes)

end ApiIntake.Text
