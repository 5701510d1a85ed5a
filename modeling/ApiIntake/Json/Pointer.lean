import ApiIntake.Json.Basic
import ApiIntake.Text.Digits

/-!
# JSON pointers

A pointer is a text of tokens, each behind a slash, that selects a value inside
another: a token names a member of an object or the position of an item of an
array.  Inside a token `~1` stands for a slash and `~0` for a tilde.
-/

namespace ApiIntake

namespace Json

/-- Splits a text at its slashes. -/
def slashParts : List Char → List (List Char)
  | [] => [[]]
  | c :: cs =>
    if c = '/' then [] :: slashParts cs
    else match slashParts cs with
      | part :: parts => (c :: part) :: parts
      | [] => [[c]]

/-- Reads `~1` as a slash; any other character stands for itself. -/
def readSlashes : List Char → List Char
  | '~' :: '1' :: cs => '/' :: readSlashes cs
  | c :: cs => c :: readSlashes cs
  | [] => []

/-- Reads `~0` as a tilde; any other character stands for itself. -/
def readTildes : List Char → List Char
  | '~' :: '0' :: cs => '~' :: readTildes cs
  | c :: cs => c :: readTildes cs
  | [] => []

/-- The tokens of a pointer: none for the empty one, and no pointer begins with
anything but a slash. -/
def pointerTokens? : List Char → Option (List String)
  | [] => some []
  | '/' :: cs =>
    some ((slashParts cs).map fun part => String.ofList (readTildes (readSlashes part)))
  | _ => none

/-- The position that a token names: decimal digits without a leading zero. -/
def index? (token : String) : Option Nat :=
  match token.toList with
  | [] => none
  | ['0'] => some 0
  | '0' :: _ => none
  | ds => Text.natural? ds

/-- The part of a value that one token selects. -/
def child? (v : Json) (token : String) : Option Json :=
  match v with
  | .obj members => members.lookup token
  | .arr items => (index? token).bind fun i => items[i]?
  | _ => none

/-- The part of a value that a pointer selects. -/
def pointer? (v : Json) (pointer : List Char) : Option Json :=
  (pointerTokens? pointer).bind fun tokens => tokens.foldlM child? v

end Json

end ApiIntake
