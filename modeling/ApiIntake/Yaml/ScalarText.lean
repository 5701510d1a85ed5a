import ApiIntake.Yaml.Cursor
import ApiIntake.Text.Hex

/-!
# The text of a scalar

How a scalar is read off the characters of a document: plain, between single or
double quotes, or as an indented block.  In all but the literal block a single line
end between two lines counts as a space, and each further one as a line feed.
Accumulated characters are kept last first.
-/

namespace ApiIntake.Yaml

/-- Blanks seen since the last character of a scalar. -/
structure Gap where
  /-- Spaces and tabs before any line end, last first. -/
  spaces : List Char
  /-- The first line end. -/
  first : List Char
  /-- The line ends after it, last first. -/
  more : List Char
  /-- A line end has been passed. -/
  broken : Bool

namespace Gap

/-- No blanks. -/
def none : Gap := ⟨[], [], [], false⟩

/-- Whether nothing has been seen. -/
def isEmpty (g : Gap) : Bool := g.spaces.isEmpty && !g.broken

/-- What the blanks count for, put behind the characters of the scalar: a single
line feed is a space, and is dropped before further line ends. -/
def onto (g : Gap) (text : List Char) : List Char :=
  if g.broken then
    if g.first = ['\n'] then if g.more.isEmpty then ' ' :: text else g.more ++ text
    else g.more ++ g.first ++ text
  else g.spaces ++ text

/-- Passes the spaces, tabs and line ends at the cursor.  Behind a line end, a tab
left of the column `margin` is a fault. -/
def scan (margin : Int) : Nat → Cursor → Gap → Except Fault (Gap × Cursor)
  | 0, c, g => .ok (g, c)
  | fuel + 1, c, g =>
    match c.rest with
    | [] => .ok (g, c)
    | x :: _ =>
      if isSpace x then
        if g.broken ∧ (c.column : Int) < margin ∧ x = '\t' then .error c.fault
        else if g.broken then scan margin fuel c.skip g
        else scan margin fuel c.skip { g with spaces := x :: g.spaces }
      else if isBreak x then
        if g.broken then scan margin fuel c.skipBreak { g with more := c.breakChars ++ g.more }
        else
          scan margin fuel c.skipBreak
            { g with spaces := [], first := c.breakChars, broken := true }
      else .ok (g, c)

end Gap

/-! ## Plain scalars -/

/-- Whether a character ends a plain scalar inside a flow collection. -/
def isFlowMark (c : Char) : Bool :=
  c = ',' || c = '[' || c = ']' || c = '\x7b' || c = '\x7d'

/-- The characters up to a blank or a mark that ends a plain scalar. -/
def plainRun (inFlow : Bool) : Nat → Cursor → List Char → Except Fault (List Char × Cursor)
  | 0, c, text => .ok (text, c)
  | fuel + 1, c, text =>
    match c.rest with
    | [] => .ok (text, c)
    | x :: r =>
      if isSpace x ∨ isBreak x then .ok (text, c)
      else if inFlow ∧ x = ':' ∧ r.head?.any (fun y => isFlowMark y || y = '?') then .error c.fault
      else if x = ':' ∧ blankOrEnd r then .ok (text, c)
      else if inFlow ∧ isFlowMark x then .ok (text, c)
      else plainRun inFlow fuel c.skip (x :: text)

/-- A plain scalar; also whether it was left behind a line end.  Its further lines
stand right of `indent`. -/
def plainScalar (inFlow : Bool) (indent : Int) :
    Nat → Cursor → List Char → Gap → Except Fault (List Char × Bool × Cursor)
  | 0, c, text, g => .ok (text, g.broken, c)
  | fuel + 1, c, text, g =>
    if c.atDocumentMark ∨ c.rest.head? = some '#' then .ok (text, g.broken, c)
    else do
      let (run, c') ← plainRun inFlow (c.rest.length + 1) c []
      let (text, g) := if run.isEmpty then (text, g) else (run ++ g.onto text, Gap.none)
      match c'.rest with
      | x :: _ =>
        if isSpace x ∨ isBreak x then
          let (g, c'') ← Gap.scan (indent + 1) (c'.rest.length + 1) c' g
          if !inFlow ∧ (c''.column : Int) < indent + 1 then .ok (text, g.broken, c'')
          else plainScalar inFlow indent fuel c'' text g
        else .ok (text, g.broken, c')
      | [] => .ok (text, g.broken, c')

/-! ## Quoted scalars -/

/-- The number that hexadecimal digits stand for. -/
def hexNumber? (ds : List Char) : Option Nat :=
  ds.foldlM (fun n d => (Text.hexValue? d).map (n * 16 + ·)) 0

/-- The character that a backslash and the text behind it stand for, and how many
characters of that text it takes. -/
def escape? : List Char → Option (Char × Nat)
  | '0' :: _ => some ('\x00', 1)
  | 'a' :: _ => some ('\x07', 1)
  | 'b' :: _ => some ('\x08', 1)
  | 't' :: _ => some ('\t', 1)
  | '\t' :: _ => some ('\t', 1)
  | 'n' :: _ => some ('\n', 1)
  | 'v' :: _ => some ('\x0b', 1)
  | 'f' :: _ => some ('\x0c', 1)
  | 'r' :: _ => some ('\r', 1)
  | 'e' :: _ => some ('\x1b', 1)
  | ' ' :: _ => some (' ', 1)
  | '"' :: _ => some ('"', 1)
  | '/' :: _ => some ('/', 1)
  | '\\' :: _ => some ('\\', 1)
  | 'N' :: _ => some ('\x85', 1)
  | '_' :: _ => some ('\xa0', 1)
  | 'L' :: _ => some ('\u2028', 1)
  | 'P' :: _ => some ('\u2029', 1)
  | 'x' :: r => coded r 2
  | 'u' :: r => coded r 4
  | 'U' :: r => coded r 8
  | _ => none
where
  /-- A code point in `n` hexadecimal digits. -/
  coded (r : List Char) (n : Nat) : Option (Char × Nat) :=
    if r.length < n then none
    else do
      let code ← hexNumber? (r.take n)
      if code.isValidChar then some (Char.ofNat code, n + 1) else none

/-- The characters of a quoted scalar up to a blank, the closing quote or an escaped
line end; the flag says that an escaped line end was passed. -/
def quotedRun (single : Bool) : Nat → Cursor → List Char → Except Fault (List Char × Bool × Cursor)
  | 0, c, text => .ok (text, false, c)
  | fuel + 1, c, text =>
    match c.rest with
    | [] => .ok (text, false, c)
    | x :: r =>
      if isSpace x ∨ isBreak x then .ok (text, false, c)
      else if single then
        if x = '\'' then
          if r.head? = some '\'' then quotedRun single fuel (c.skipMany 2) ('\'' :: text)
          else .ok (text, false, c)
        else quotedRun single fuel c.skip (x :: text)
      else if x = '"' then .ok (text, false, c)
      else if x = '\\' then
        if r.head?.any isBreak then .ok (text, true, c.skip.skipBreak)
        else match escape? r with
          | some (y, n) => quotedRun single fuel (c.skipMany (n + 1)) (y :: text)
          | none => .error c.fault
      else quotedRun single fuel c.skip (x :: text)

/-- A quoted scalar behind its opening quote, up to and past the closing one. -/
def quotedScalar (single : Bool) : Nat → Cursor → List Char → Except Fault (List Char × Cursor)
  | 0, c, _ => .error c.fault
  | fuel + 1, c, text =>
    if c.atDocumentMark ∨ c.rest.isEmpty then .error c.fault
    else do
      let (text, escaped, c') ← quotedRun single (c.rest.length + 1) c text
      if !escaped ∧ c'.rest.head? = some (if single then '\'' else '"') then .ok (text, c'.skip)
      else do
        let (g, c'') ← Gap.scan 0 (c'.rest.length + 1) c' { Gap.none with broken := escaped }
        quotedScalar single fuel c'' (g.onto text)

/-! ## Block scalars -/

/-- What happens to the line ends behind the last line of a block. -/
inductive Chomping where
  /-- None is kept. -/
  | strip
  /-- The first is kept. -/
  | clip
  /-- All are kept. -/
  | keep
deriving DecidableEq, Repr

/-- The marks behind the sign that opens a block: at most one for the chomping and
one digit for the indentation, in either order. -/
def blockHeader (c : Cursor) : Except Fault (Chomping × Option Nat × Cursor) :=
  let chomp? : Char → Option Chomping := fun x =>
    if x = '+' then some .keep else if x = '-' then some .strip else none
  let digit? : Char → Option Nat := fun x => if x.isDigit then some (x.toNat - 48) else none
  let checked : Chomping × Option Nat × Cursor → Except Fault (Chomping × Option Nat × Cursor) :=
    fun h => if h.2.1 = some 0 then .error c.fault else .ok h
  match c.rest with
  | x :: r =>
    match chomp? x, digit? x with
    | some k, _ =>
      match r.head?.bind digit? with
      | some n => checked (k, some n, c.skipMany 2)
      | none => .ok (k, none, c.skip)
    | none, some n =>
      match r.head?.bind chomp? with
      | some k => checked (k, some n, c.skipMany 2)
      | none => checked (.clip, some n, c.skip)
    | none, none => .ok (.clip, none, c)
  | [] => .ok (.clip, none, c)

/-- Past spaces and tabs. -/
def skipSpaces : Nat → Cursor → Cursor
  | 0, c => c
  | fuel + 1, c => if c.rest.head?.any isSpace then skipSpaces fuel c.skip else c

/-- Past all characters up to the end of the line. -/
def skipLine : Nat → Cursor → Cursor
  | 0, c => c
  | fuel + 1, c => if breakOrEnd c.rest then c else skipLine fuel c.skip

/-- Past blanks, a comment, and the end of the line, which has to come then. -/
def finishLine (c : Cursor) : Except Fault Cursor :=
  let c := skipSpaces (c.rest.length + 1) c
  let c := if c.rest.head? = some '#' then skipLine (c.rest.length + 1) c else c
  if breakOrEnd c.rest then .ok c.skipBreak else .error c.fault

/-- Passes the empty lines before a line of a block, and the spaces of that line up
to the indentation, if it is known.  Gives the line ends, last first, and the widest
run of spaces seen. -/
def blockBreaks (indent : Option Nat) :
    Nat → Cursor → List Char → Nat → Except Fault (List Char × Nat × Cursor)
  | 0, c, ends, widest => .ok (ends, widest, c)
  | fuel + 1, c, ends, widest =>
    let inside := indent.all (c.column < ·)
    match c.rest with
    | x :: _ =>
      if inside ∧ x = ' ' then blockBreaks indent fuel c.skip ends widest
      else
        let widest := max widest c.column
        if inside ∧ x = '\t' then .error c.fault
        else if isBreak x then blockBreaks indent fuel c.skipBreak (c.breakChars ++ ends) widest
        else .ok (ends, widest, c)
    | [] => .ok (ends, max widest c.column, c)

/-- The characters up to the end of the line, last first. -/
def lineChars : Nat → Cursor → List Char → List Char × Cursor
  | 0, c, text => (text, c)
  | fuel + 1, c, text =>
    match c.rest with
    | x :: _ => if isBreak x then (text, c) else lineChars fuel c.skip (x :: text)
    | [] => (text, c)

/-- The lines of a block from the cursor on.  `first` is the line end behind the
line before, `more` the empty lines after it, and `wasBlank` says that the line
before began with a blank. -/
def blockLines (literal : Bool) (chomping : Chomping) (indent : Nat) :
    Nat → Cursor → List Char → List Char → List Char → Bool → Except Fault (List Char × Cursor)
  | 0, c, _, _, _, _ => .error c.fault
  | fuel + 1, c, text, first, more, wasBlank =>
    if c.column = indent ∧ !c.rest.isEmpty then do
      let isBlank := c.rest.head?.any isSpace
      let text :=
        if !literal ∧ first = ['\n'] ∧ !wasBlank ∧ !isBlank then
          if more.isEmpty then ' ' :: text else text
        else first ++ text
      let (text, c') := lineChars (c.rest.length + 1) c (more ++ text)
      let (more, _, c'') ← blockBreaks (some indent) (c'.rest.length + 1) c'.skipBreak [] 0
      blockLines literal chomping indent fuel c'' text c'.breakChars more isBlank
    else
      match chomping with
      | .strip => .ok (text, c)
      | .clip => .ok (first ++ text, c)
      | .keep => .ok (more ++ first ++ text, c)

/-- A block scalar behind the sign that opens it, inside a node indented by
`indent`, which is `-1` outside all nodes. -/
def blockScalar (literal : Bool) (indent : Int) (c : Cursor) :
    Except Fault (List Char × Cursor) := do
  let (chomping, given, c) ← blockHeader c
  let c ← finishLine c
  let known := given.map fun n => (if 0 ≤ indent then indent.toNat + n else n)
  let (more, widest, c) ← blockBreaks known (c.rest.length + 1) c [] 0
  let indent := known.getD (max widest (max (indent + 1).toNat 1))
  blockLines literal chomping indent (c.rest.length + 2) c [] [] more false

end ApiIntake.Yaml
