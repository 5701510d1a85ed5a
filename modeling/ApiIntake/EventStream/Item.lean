import ApiIntake.Text.Utf8
import ApiIntake.Text.Digits

/-!
# Event streams as they arrive

An event stream arrives in pieces of bytes.  A line ends at a line feed, a carriage
return, or the two together; an empty line ends an event.  A line that is no field, a
field that is not known, a second name for one event, or a value that is no text is
refused, and with it the rest of the piece that it ends in.

`items` is the sequence of events and refusals that a reader meets.  A refusal comes
before the events that were complete ahead of it in the same piece.
-/

namespace ApiIntake.EventStream

/-- The fields of an event that were read so far. -/
structure Fields where
  /-- The name. -/
  name : Option String
  /-- The id. -/
  id : Option String
  /-- The data, its lines joined. -/
  data : Option String
deriving DecidableEq, Repr

/-- No field was read. -/
def Fields.empty : Fields := ⟨none, none, none⟩

/-- What a reader meets. -/
inductive Item where
  /-- An event. -/
  | event (fields : Fields)
  /-- A line was refused. -/
  | refused
deriving DecidableEq, Repr

/-- The byte order mark that may stand before a stream. -/
def byteOrderMark : List UInt8 := [0xEF, 0xBB, 0xBF]

/-- The parts of a piece between line ends, and whether it ends with a carriage return.
The last part is not ended yet.  A line feed behind a carriage return ends no line of
its own, and the flag says whether one stands before the piece. -/
def splitLines : Bool → List UInt8 → List (List UInt8) × Bool
  | afterReturn, [] => ([[]], afterReturn)
  | afterReturn, b :: bs =>
    if b = 10 then
      if afterReturn then splitLines false bs
      else
        let (parts, last) := splitLines false bs
        ([] :: parts, last)
    else if b = 13 then
      let (parts, last) := splitLines true bs
      ([] :: parts, last)
    else
      match splitLines false bs with
      | (part :: parts, last) => ((b :: part) :: parts, last)
      | ([], last) => ([[b]], last)

/-- Whether a text is a number of milliseconds: decimal digits with at most one plus
sign before them, below two to the 64th. -/
def isDuration (s : String) : Bool :=
  let isSpace (c : Char) : Bool := c = ' ' || c = '\t' || c = '\x0c'
  let cs := ((s.toList.dropWhile isSpace).reverse.dropWhile isSpace).reverse
  (Text.signedNatural? cs).any fun n => n < 0x10000000000000000

/-- Adds a field to an event, unless it is refused. -/
def Fields.add? (f : Fields) (field : List UInt8) (value : List UInt8) : Option Fields :=
  if field = Text.utf8 "data" then do
    let v ← Text.ofUtf8? value
    some { f with data := some (match f.data with | some d => d ++ "\n" ++ v | none => v) }
  else if field = Text.utf8 "event" then do
    let v ← Text.ofUtf8? value
    if f.name.isSome then none else some { f with name := some v }
  else if field = Text.utf8 "id" then do
    let v ← Text.ofUtf8? value
    some { f with id := some v }
  else if field = Text.utf8 "retry" then do
    let v ← Text.ofUtf8? value
    if isDuration v then some f else none
  else none

/-- Where reading stands: the event that was begun, if any line of it was read, the
line that was begun, and whether it follows a carriage return or starts the stream. -/
structure Reading where
  /-- The event that was begun. -/
  fields : Option Fields
  /-- The line that was begun. -/
  begun : List UInt8
  /-- Whether a carriage return ended the line before it at once. -/
  afterReturn : Bool
  /-- Whether no line was read yet. -/
  atStart : Bool

/-- The beginning of a stream. -/
def Reading.start : Reading := ⟨none, [], false, true⟩

/-- Reads the lines that end in a piece.  The result is the events that they complete,
the event that is begun behind them, and whether a line was refused; nothing is read
behind a refused line. -/
def readLines : Option Fields → List (List UInt8) → List Fields × Option Fields × Bool
  | fields, [] => ([], fields, false)
  | fields, [] :: rest =>
    let (events, last) := readLines none rest
    (fields.toList ++ events, last)
  | fields, line :: rest =>
    let field := line.takeWhile (· ≠ 58)
    if field.length = line.length then ([], fields, true)
    else if field.isEmpty then readLines fields rest
    else
      let value := line.drop (field.length + 1)
      let value := if value.head? = some 32 then value.drop 1 else value
      match (fields.getD .empty).add? field value with
      | some fields => readLines (some fields) rest
      | none => ([], fields, true)

/-- Reads a piece. -/
def Reading.piece (r : Reading) (bytes : List UInt8) : List Item × Reading :=
  let (parts, afterReturn) := splitLines r.afterReturn bytes
  let parts := match parts with
    | first :: rest => (r.begun ++ first) :: rest
    | [] => []
  let begun := parts.getLastD []
  let lines := match parts.dropLast with
    | first :: rest =>
      (if r.atStart && byteOrderMark.isPrefixOf first then first.drop 3 else first) :: rest
    | [] => []
  let (events, fields, refused) := readLines r.fields lines
  let items := (if refused then [.refused] else []) ++ events.map .event
  let atStart := r.atStart && lines.isEmpty
  (items, if refused then ⟨fields, [], false, atStart⟩ else ⟨fields, begun, afterReturn, atStart⟩)

/-- What a reader meets that goes on from `r`. -/
def Reading.items : Reading → List (List UInt8) → List Item
  | _, [] => []
  | r, bytes :: rest =>
    let (items, r) := r.piece bytes
    items ++ r.items rest

/-- What a reader meets in a stream that arrives in the given pieces. -/
def items (pieces : List (List UInt8)) : List Item := Reading.start.items pieces

end ApiIntake.EventStream
