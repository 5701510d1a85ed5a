import ApiIntake.Yaml.ScalarText
import ApiIntake.Text.Utf8
import ApiIntake.Text.Digits

/-!
# Tokens of a document

The marks and scalars of a document in order.  Where a node turns out to be a key
only once the colon behind it is reached, the token that says so is put in front of
it afterwards: a place where that is still possible is kept as a pending key, one for
each flow collection that is open and one for the block around them, until the line
ends or 1024 characters have passed.  Indentation opens and closes block collections
by tokens of their own.
-/

namespace ApiIntake.Yaml

/-- A token. -/
inductive Token where
  /-- A directive that declares a version. -/
  | version (major minor : Nat)
  /-- A directive that declares a tag handle. -/
  | handle (name uri : String)
  | documentStart
  | documentEnd
  | blockSequenceStart
  | blockMappingStart
  | blockEnd
  | flowSequenceStart
  | flowSequenceEnd
  | flowMappingStart
  | flowMappingEnd
  | blockEntry
  | flowEntry
  | key
  | value
  | alias (name : String)
  | anchor (name : String)
  /-- A tag: a handle and what follows it. -/
  | tag (handle suffix : String)
  /-- A scalar, with whether it is plain. -/
  | scalar (text : String) (plain : Bool)
deriving DecidableEq, Repr, Inhabited

/-- A place where a key may have begun. -/
structure PendingKey where
  /-- The node stands where only a key can stand. -/
  required : Bool
  /-- The number of tokens before it. -/
  place : Nat
  /-- The number of characters before it. -/
  index : Nat
  /-- The line it stands on. -/
  line : Nat
  /-- The column it stands at. -/
  column : Nat

/-- A document read up to a cursor. -/
structure Scanner where
  /-- Where reading goes on. -/
  cursor : Cursor
  /-- The number of open flow collections. -/
  flow : Nat
  /-- The column of the innermost block collection, `-1` outside all. -/
  indent : Int
  /-- The columns of the block collections around it, innermost first. -/
  outer : List Int
  /-- A key may begin here. -/
  keyAllowed : Bool
  /-- The pending keys, that of the innermost collection first. -/
  pending : List (Option PendingKey)
  /-- The tokens read. -/
  tokens : Array Token

namespace Scanner

/-- Adds a token behind the others. -/
def emit (s : Scanner) (t : Token) : Scanner := { s with tokens := s.tokens.push t }

/-- Adds a token in front of those from a place on. -/
def emitAt (s : Scanner) (place : Nat) (t : Token) : Scanner :=
  { s with tokens := (s.tokens.toList.insertIdx place t).toArray }

/-- Gives up the pending keys that began on an earlier line or too far back; one
that was required is a fault. -/
def dropStale (s : Scanner) : Except Fault Scanner := do
  let pending ← s.pending.mapM fun
    | some k =>
      if k.line < s.cursor.line ∨ k.index + 1024 < s.cursor.index then
        if k.required then .error s.cursor.fault else .ok none
      else .ok (some k)
    | none => .ok none
  .ok { s with pending }

/-- Gives up the pending key of the innermost collection; one that was required is a
fault. -/
def dropKey (s : Scanner) : Except Fault Scanner :=
  match s.pending with
  | some k :: rest =>
    if k.required then .error s.cursor.fault else .ok { s with pending := none :: rest }
  | _ => .ok s

/-- Notes that a key may begin here. -/
def noteKey (s : Scanner) : Except Fault Scanner :=
  if s.keyAllowed then do
    let required := s.flow = 0 ∧ s.indent = s.cursor.column
    let s ← s.dropKey
    .ok { s with
      pending := some
        { required, place := s.tokens.size, index := s.cursor.index
          line := s.cursor.line, column := s.cursor.column } :: s.pending.tail }
  else .ok s

/-- Opens a block collection if the column lies right of the innermost one; its
token goes to the given place, or behind all others. -/
def openBlock (s : Scanner) (column : Int) (place : Option Nat) (t : Token) : Scanner :=
  if s.flow = 0 ∧ s.indent < column then
    let s := { s with outer := s.indent :: s.outer, indent := column }
    match place with
    | some n => s.emitAt n t
    | none => s.emit t
  else s

/-- Closes the block collections that lie right of a column. -/
def closeBlocks (column : Int) (s : Scanner) : Scanner :=
  if s.flow ≠ 0 then s
  else go s.outer s
where
  /-- Closes the innermost collection as long as it lies right of the column. -/
  go : List Int → Scanner → Scanner
    | [], s => s
    | around :: outer, s =>
      if column < s.indent then go outer { s.emit .blockEnd with indent := around, outer }
      else s

/-- Moves the cursor. -/
def moveTo (s : Scanner) (c : Cursor) : Scanner := { s with cursor := c }

/-- Past spaces, comments and line ends to where the next token begins.  A tab
counts as a space only where no key can begin. -/
def toNextToken (s : Scanner) : Nat → Scanner
  | 0 => s
  | fuel + 1 =>
    match s.cursor.rest with
    | x :: _ =>
      if x = '\ufeff' ∧ s.cursor.index = 0 then (s.moveTo s.cursor.skip).toNextToken fuel
      else if x = ' ' ∨ (x = '\t' ∧ (s.flow ≠ 0 ∨ !s.keyAllowed)) then
        (s.moveTo s.cursor.skip).toNextToken fuel
      else if x = '#' then
        (s.moveTo (skipLine (s.cursor.rest.length + 1) s.cursor)).toNextToken fuel
      else if isBreak x then
        let below := s.moveTo s.cursor.skipBreak
        { below with keyAllowed := s.keyAllowed || s.flow = 0 }.toNextToken fuel
      else s
    | [] => s

/-! ## Names -/

/-- The longest run of word characters, and the cursor behind it. -/
def wordRun (c : Cursor) : List Char × Cursor :=
  let word := c.rest.takeWhile isWord
  (word, c.skipMany word.length)

/-- The name of an anchor or alias behind its sign. -/
def anchorName (c : Cursor) : Except Fault (String × Cursor) :=
  let (word, c') := wordRun c
  let ended := blankOrEnd c'.rest ||
    c'.rest.head?.any fun x => ['?', ':', ',', ']', '\x7d', '%', '@', '`'].contains x
  if word.isEmpty ∨ !ended then .error c.fault else .ok (String.ofList word, c')

/-- The characters of a resource identifier besides word characters. -/
def uriMarks : List Char :=
  [';', '/', '?', ':', '@', '&', '=', '+', '$', '.', '%', '!', '~', '*', '\'', '(', ')']

/-- One character written as percent signs with two hexadecimal digits each, by its
UTF-8 bytes. -/
def uriEscape? (cs : List Char) : Option (Char × Nat) := do
  let byte? : List Char → Option Nat := fun cs =>
    match cs with
    | '%' :: a :: b :: _ => hexNumber? [a, b]
    | _ => none
  let first ← byte? cs
  let width ←
    if first < 0x80 then some 1
    else if 0xC0 ≤ first ∧ first < 0xE0 then some 2
    else if 0xE0 ≤ first ∧ first < 0xF0 then some 3
    else if 0xF0 ≤ first ∧ first < 0xF8 then some 4
    else none
  let bytes ← (List.range width).mapM fun i => byte? (cs.drop (3 * i))
  let text ← Text.ofUtf8? (bytes.map UInt8.ofNat)
  match text.toList with
  | [c] => some (c, 3 * width)
  | _ => none

/-- The characters of a resource identifier, last first. -/
def uriRun (verbatim : Bool) : Nat → Cursor → List Char → Except Fault (List Char × Cursor)
  | 0, c, text => .ok (text, c)
  | fuel + 1, c, text =>
    match c.rest with
    | x :: _ =>
      if x = '%' then
        match uriEscape? c.rest with
        | some (y, n) => uriRun verbatim fuel (c.skipMany n) (y :: text)
        | none => .error c.fault
      else if isWord x ∨ uriMarks.contains x ∨ (verbatim ∧ [',', '[', ']'].contains x) then
        uriRun verbatim fuel c.skip (x :: text)
      else .ok (text, c)
    | [] => .ok (text, c)

/-- A tag handle: a sign, word characters, and a sign behind them if one follows. -/
def handleRun (c : Cursor) : List Char × Cursor :=
  let (word, c') := wordRun c.skip
  if c'.rest.head? = some '!' then ('!' :: word ++ ['!'], c'.skip) else ('!' :: word, c')

/-- A tag: `!<uri>`, `!handle!suffix`, `!suffix`, or the sign alone. -/
def tagToken (s : Scanner) : Except Fault (Token × Cursor) := do
  let c := s.cursor
  let fuel := c.rest.length + 1
  let (token, c') ←
    if c.ahead? 1 = some '<' then do
      let (uri, c') ← uriRun true fuel (c.skipMany 2) []
      if uri.isEmpty ∨ c'.rest.head? ≠ some '>' then .error c'.fault
      else .ok (Token.tag "" (String.ofList uri.reverse), c'.skip)
    else do
      let (name, c') := handleRun c
      if 2 ≤ name.length ∧ name.getLast? = some '!' then do
        let (suffix, c') ← uriRun false fuel c' []
        if suffix.isEmpty then .error c'.fault
        else .ok (Token.tag (String.ofList name) (String.ofList suffix.reverse), c')
      else do
        let (suffix, c') ← uriRun false fuel c' name.tail.reverse
        if suffix.isEmpty then .ok (Token.tag "" "!", c')
        else .ok (Token.tag "!" (String.ofList suffix.reverse), c')
  if blankOrEnd c'.rest ∨ (s.flow ≠ 0 ∧ c'.rest.head? = some ',') then .ok (token, c')
  else .error c'.fault

/-- Digits of a version number, at most nine. -/
def versionNumber (c : Cursor) : Except Fault (Nat × Cursor) :=
  let ds := c.rest.takeWhile Char.isDigit
  if ds.isEmpty ∨ 9 < ds.length then .error c.fault
  else .ok (Text.digitsValue ds, c.skipMany ds.length)

/-- A directive at the beginning of a line, and the rest of that line. -/
def directive (c : Cursor) : Except Fault (Token × Cursor) := do
  let (name, c') := wordRun c.skip
  let fuel := c.rest.length + 1
  if name.isEmpty ∨ !blankOrEnd c'.rest then .error c'.fault
  else
    let c' := skipSpaces fuel c'
    let (token, c') ←
      if name = "YAML".toList then do
        let (major, c') ← versionNumber c'
        if c'.rest.head? ≠ some '.' then .error c'.fault
        else do
          let (minor, c') ← versionNumber c'.skip
          .ok (Token.version major minor, c')
      else if name = "TAG".toList then do
        if c'.rest.head? ≠ some '!' then .error c'.fault
        else do
          let (name, c') := handleRun c'
          if (name.getLast? ≠ some '!') ∨ !(c'.rest.head?.any isSpace) then .error c'.fault
          else do
            let (uri, c') ← uriRun true fuel (skipSpaces fuel c') []
            if uri.isEmpty ∨ !blankOrEnd c'.rest then .error c'.fault
            else .ok (Token.handle (String.ofList name) (String.ofList uri.reverse), c')
      else .error c'.fault
    let c' ← finishLine c'
    .ok (token, c')

/-! ## One token -/

/-- A mark that opens a flow collection. -/
def openFlow (s : Scanner) (t : Token) : Except Fault Scanner := do
  let s ← s.noteKey
  .ok { (s.moveTo s.cursor.skip).emit t with
    pending := none :: s.pending, flow := s.flow + 1, keyAllowed := true }

/-- A mark that closes a flow collection. -/
def closeFlow (s : Scanner) (t : Token) : Except Fault Scanner := do
  let s ← s.dropKey
  let s := if s.flow = 0 then s else { s with flow := s.flow - 1, pending := s.pending.tail }
  .ok { (s.moveTo s.cursor.skip).emit t with keyAllowed := false }

/-- The mark in front of an item of a block sequence. -/
def blockEntry (s : Scanner) : Except Fault Scanner := do
  if s.flow = 0 ∧ !s.keyAllowed then .error s.cursor.fault
  else
    let s := s.openBlock s.cursor.column none .blockSequenceStart
    let s ← s.dropKey
    .ok { (s.moveTo s.cursor.skip).emit .blockEntry with keyAllowed := true }

/-- The mark in front of a key. -/
def explicitKey (s : Scanner) : Except Fault Scanner := do
  if s.flow = 0 ∧ !s.keyAllowed then .error s.cursor.fault
  else
    let s := s.openBlock s.cursor.column none .blockMappingStart
    let s ← s.dropKey
    .ok { (s.moveTo s.cursor.skip).emit .key with keyAllowed := s.flow = 0 }

/-- The mark in front of a value.  If a key is pending, the token for it goes in
front of that key now. -/
def valueMark (s : Scanner) : Except Fault Scanner :=
  match s.pending with
  | some k :: rest =>
    let s := s.emitAt k.place .key
    let s := s.openBlock k.column (some k.place) .blockMappingStart
    .ok { (s.moveTo s.cursor.skip).emit .value with pending := none :: rest, keyAllowed := false }
  | _ =>
    if s.flow = 0 ∧ !s.keyAllowed then .error s.cursor.fault
    else
      let s := s.openBlock s.cursor.column none .blockMappingStart
      .ok { (s.moveTo s.cursor.skip).emit .value with keyAllowed := s.flow = 0 }

/-- A token that may be, or belong to, a key. -/
def nodeToken (s : Scanner) (read : Scanner → Except Fault (Token × Cursor)) :
    Except Fault Scanner := do
  let s ← s.noteKey
  let (t, c) ← read s
  .ok { (s.moveTo c).emit t with keyAllowed := false }

/-- A plain scalar; behind a line end a key may begin. -/
def plainToken (s : Scanner) : Except Fault Scanner := do
  let s ← s.noteKey
  let (text, broken, c) ←
    plainScalar (s.flow ≠ 0) s.indent (s.cursor.rest.length + 1) s.cursor [] Gap.none
  .ok { (s.moveTo c).emit (.scalar (String.ofList text.reverse) true) with keyAllowed := broken }

/-- A block scalar behind the sign that opens it. -/
def blockToken (s : Scanner) (literal : Bool) : Except Fault Scanner := do
  let s ← s.dropKey
  let (text, c) ← blockScalar literal s.indent s.cursor.skip
  .ok { (s.moveTo c).emit (.scalar (String.ofList text.reverse) false) with keyAllowed := true }

/-- A line that stands outside all nodes: every block collection ends before it. -/
def outsideBlocks (s : Scanner) : Except Fault Scanner := do
  let s ← (s.closeBlocks (-1)).dropKey
  .ok { s with keyAllowed := false }

/-- The characters that begin no plain scalar. -/
def indicators : List Char :=
  ['-', '?', ':', ',', '[', ']', '\x7b', '\x7d', '#', '&', '*', '!', '|', '>', '\'', '"', '%',
    '@', '\x60']

/-- Whether a plain scalar begins with `x` in front of `r`. -/
def beginsPlain (flow : Nat) (x : Char) (r : List Char) : Bool :=
  (!isSpace x && !isBreak x && !indicators.contains x) ||
    (x = '-' && !r.head?.any isSpace) ||
    (flow = 0 && (x = '?' || x = ':') && !blankOrEnd r)

/-- Reads the token at the cursor, which begins with `x` in front of `r`. -/
def token (s : Scanner) (x : Char) (r : List Char) : Except Fault Scanner :=
  let c := s.cursor
  if c.column = 0 ∧ x = '%' then do
    let s ← s.outsideBlocks
    let (t, c) ← directive c
    .ok ((s.moveTo c).emit t)
  else if c.atDocumentMark then do
    let s ← s.outsideBlocks
    .ok ((s.moveTo (c.skipMany 3)).emit (if x = '-' then .documentStart else .documentEnd))
  else if x = '[' then s.openFlow .flowSequenceStart
  else if x = '\x7b' then s.openFlow .flowMappingStart
  else if x = ']' then s.closeFlow .flowSequenceEnd
  else if x = '\x7d' then s.closeFlow .flowMappingEnd
  else if x = ',' then do
    let s ← s.dropKey
    .ok { (s.moveTo c.skip).emit .flowEntry with keyAllowed := true }
  else if x = '-' ∧ blankOrEnd r then s.blockEntry
  else if x = '?' ∧ (s.flow ≠ 0 ∨ blankOrEnd r) then s.explicitKey
  else if x = ':' ∧ (s.flow ≠ 0 ∨ blankOrEnd r) then s.valueMark
  else if x = '*' then s.nodeToken fun s => do
    let (name, c) ← anchorName s.cursor.skip
    .ok (.alias name, c)
  else if x = '&' then s.nodeToken fun s => do
    let (name, c) ← anchorName s.cursor.skip
    .ok (.anchor name, c)
  else if x = '!' then s.nodeToken tagToken
  else if x = '|' ∧ s.flow = 0 then s.blockToken true
  else if x = '>' ∧ s.flow = 0 then s.blockToken false
  else if x = '\'' ∨ x = '"' then s.nodeToken fun s => do
    let (text, c) ← quotedScalar (x = '\'') (s.cursor.rest.length + 1) s.cursor.skip []
    .ok (.scalar (String.ofList text.reverse) false, c)
  else if beginsPlain s.flow x r then s.plainToken
  else .error c.fault

/-- Reads all tokens up to the end of the text, where every block collection ends. -/
def run : Nat → Scanner → Except Fault (Array Token)
  | 0, s => .error s.cursor.fault
  | fuel + 1, s => do
    let s ← (s.toNextToken (s.cursor.rest.length + 1)).dropStale
    let s := s.closeBlocks s.cursor.column
    match s.cursor.rest with
    | x :: r => do
      let s ← s.token x r
      run fuel s
    | [] => do
      let s ← (s.closeBlocks (-1)).dropKey
      .ok s.tokens

end Scanner

/-- The tokens of a text. -/
def Token.scan (text : List Char) : Except Fault (List Token) :=
  if !text.all isAllowed then .error .forbiddenCharacter
  else do
    let start : Scanner :=
      { cursor := ⟨text, 0, 0, 0⟩, flow := 0, indent := -1, outer := [], keyAllowed := true
        pending := [none], tokens := #[] }
    let tokens ← start.run (text.length + 2)
    .ok tokens.toList

end ApiIntake.Yaml
