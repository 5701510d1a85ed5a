/-!
# Reading characters with their place

A cursor is the rest of a document together with the line and the column at which
that rest begins.  A line ends at a line feed, a carriage return, the two together,
or one of the three Unicode separators; `Cursor.skipBreak` passes such an end as one
step and `breakChars` gives the characters that it counts for inside a scalar.
-/

namespace ApiIntake.Yaml

/-- What is wrong with the text of a document. -/
inductive Fault where
  /-- A character or byte that no document may hold. -/
  | forbiddenCharacter
  /-- The characters at this line and column begin no token. -/
  | badToken (line column : Nat)
  /-- The tokens at this place of the token list are no node. -/
  | badStructure (place : Nat)
  /-- An alias without an anchor before it. -/
  | unknownAlias
  /-- A tag whose handle is not declared. -/
  | unknownHandle
  /-- More than one document. -/
  | manyDocuments
  /-- Nodes inside one another beyond the limit. -/
  | tooDeep
  /-- Aliases that repeat too much. -/
  | tooManyAliases
  /-- A scalar that is not what its tag says, or beyond the numbers that can be held. -/
  | badScalar
  /-- Two equal keys in one mapping. -/
  | duplicateKey
  /-- A document that is not of the expected form. -/
  | badForm
deriving DecidableEq, Repr

/-- The text of a fault. -/
def Fault.message : Fault → String
  | .forbiddenCharacter => "a character that is not allowed"
  | .badToken line column => s!"unexpected character at line {line + 1} column {column + 1}"
  | .badStructure place => s!"unexpected token at place {place}"
  | .unknownAlias => "unknown anchor"
  | .unknownHandle => "undefined tag handle"
  | .manyDocuments => "more than one document"
  | .tooDeep => "recursion limit exceeded"
  | .tooManyAliases => "repetition limit exceeded"
  | .badScalar => "invalid value"
  | .duplicateKey => "duplicate key"
  | .badForm => "invalid type"

/-- Whether a character ends a line. -/
def isBreak (c : Char) : Bool :=
  c = '\n' || c = '\r' || c = '\x85' || c = '\u2028' || c = '\u2029'

/-- Whether a character is a space or a tab. -/
def isSpace (c : Char) : Bool := c = ' ' || c = '\t'

/-- Whether a text begins with a space, a tab, the end of a line, or not at all. -/
def blankOrEnd : List Char → Bool
  | [] => true
  | c :: _ => isSpace c || isBreak c

/-- Whether a text begins with the end of a line or not at all. -/
def breakOrEnd : List Char → Bool
  | [] => true
  | c :: _ => isBreak c

/-- Whether a character is an ASCII letter or digit, an underscore or a hyphen. -/
def isWord (c : Char) : Bool := c.isAlphanum || c = '_' || c = '-'

/-- Whether a character may stand in a document. -/
def isAllowed (c : Char) : Bool :=
  c = '\t' || c = '\n' || c = '\r' || (' ' ≤ c && c ≤ '~') || c = '\x85' ||
    ('\xa0' ≤ c && c ≤ '\ud7ff') || ('\ue000' ≤ c && c ≤ '\ufffd') || 0x10000 ≤ c.toNat

/-- The rest of a document and the place where it begins. -/
structure Cursor where
  /-- The characters still to be read. -/
  rest : List Char
  /-- The number of characters read. -/
  index : Nat
  /-- The number of line ends passed. -/
  line : Nat
  /-- The number of characters read on this line. -/
  column : Nat

namespace Cursor

/-- Past one character that ends no line. -/
def skip (c : Cursor) : Cursor :=
  { c with rest := c.rest.tail, index := c.index + 1, column := c.column + 1 }

/-- Past `n` characters that end no line. -/
def skipMany (c : Cursor) (n : Nat) : Cursor :=
  { c with rest := c.rest.drop n, index := c.index + n, column := c.column + n }

/-- Past the end of a line, if one comes next. -/
def skipBreak (c : Cursor) : Cursor :=
  match c.rest with
  | '\r' :: '\n' :: r => { rest := r, index := c.index + 2, line := c.line + 1, column := 0 }
  | x :: r =>
    if isBreak x then { rest := r, index := c.index + 1, line := c.line + 1, column := 0 } else c
  | [] => c

/-- What the end of a line at the cursor counts for inside a scalar: a line feed, or
one of the two separators itself. -/
def breakChars (c : Cursor) : List Char :=
  match c.rest with
  | x :: _ =>
    if x = '\u2028' ∨ x = '\u2029' then [x] else if isBreak x then ['\n'] else []
  | [] => []

/-- Whether `---` or `...` stands at the beginning of a line, alone or before a blank. -/
def atDocumentMark (c : Cursor) : Bool :=
  c.column = 0 &&
    match c.rest with
    | '-' :: '-' :: '-' :: r => blankOrEnd r
    | '.' :: '.' :: '.' :: r => blankOrEnd r
    | _ => false

/-- The fault of an unexpected character here. -/
def fault (c : Cursor) : Fault := .badToken c.line c.column

/-- The character `n` places ahead. -/
def ahead? (c : Cursor) (n : Nat) : Option Char := c.rest[n]?

end Cursor

end ApiIntake.Yaml
