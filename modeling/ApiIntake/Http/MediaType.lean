/-!
# Media types

A media type is a type and a subtype with parameters, as in
`multipart/form-data; boundary=x`.  Names are compared without regard to case, and the
value of a parameter may be quoted.
-/

namespace ApiIntake.Http

/-- A media type. -/
structure MediaType where
  /-- The type in small letters. -/
  type : String
  /-- The subtype in small letters, without the suffix behind its last plus sign. -/
  subtype : String
  /-- The parameters, their names in small letters. -/
  params : List (String × String)
deriving DecidableEq, Repr

namespace MediaType

/-- Whether a character may stand in a name. -/
def isToken (c : Char) : Bool := c.isAlphanum || "!#$%&'*+-.^_\x60|~".toList.contains c

/-- A name at the beginning of a text, which is not empty, and what follows it. -/
def token? (cs : List Char) : Option (List Char × List Char) :=
  let name := cs.takeWhile isToken
  if name.isEmpty then none else some (name, cs.drop name.length)

/-- A text in small letters. -/
def small (cs : List Char) : String := String.ofList (cs.map Char.toLower)

/-- The end of a quoted value, which is not empty, and what follows the quote. -/
def quoted? : List Char → Option (List Char × List Char)
  | '\\' :: c :: rest => (quoted? rest).map fun (v, rest) => ('\\' :: c :: v, rest)
  | '"' :: rest => some ([], rest)
  | c :: rest =>
    if c.toNat < 32 ∨ c.toNat = 127 then none
    else (quoted? rest).map fun (v, rest) => (c :: v, rest)
  | [] => none

/-- A value and what follows it: a quoted text, of which a quote may be the first character,
or a name that may be empty at the end of the text. -/
def value? : List Char → Option (List Char × List Char)
  | '"' :: first :: rest =>
    if first ≠ '"' then quoted? (first :: rest)
    else (quoted? rest).map fun (v, rest) => (first :: v, rest)
  | cs =>
    let v := cs.takeWhile isToken
    let rest := cs.drop v.length
    if v.isEmpty ∧ !rest.isEmpty then none else some (v, rest)

/-- Parameters, each behind a semicolon and spaces.  `fuel` bounds their number. -/
def params? : Nat → List Char → Option (List (String × String))
  | 0, _ => none
  | fuel + 1, cs =>
    match cs.dropWhile (· = ' ') with
    | [] => some []
    | cs => do
      let (name, rest) ← token? cs
      let rest ← if rest.head? = some '=' then some (rest.drop 1) else none
      let (v, after) ← value? rest
      let after := if rest.head? = some '"' then after.dropWhile (· = ' ') else after
      let more ←
        match after with
        | [] => some []
        | ';' :: after => params? fuel after
        | _ => none
      some ((small name, String.ofList v) :: more)

/-- A subtype without the suffix behind its last plus sign; a plus sign that comes first
begins none. -/
def dropSuffix (subtype : List Char) : List Char :=
  let suffix := subtype.reverse.takeWhile (· ≠ '+')
  let kept := subtype.length - (suffix.length + 1)
  if kept = 0 then subtype else subtype.take kept

/-- Reads a media type. -/
def ofText? (s : String) : Option MediaType := do
  let (type, rest) ← token? s.toList
  let rest ← if rest.head? = some '/' then some (rest.drop 1) else none
  let (subtype, rest) ← token? rest
  let params ←
    match rest with
    | [] => some []
    | ';' :: rest => params? (rest.length + 1) rest
    | _ => none
  some ⟨small type, small (dropSuffix subtype), params⟩

/-- The boundary between the parts of a form. -/
def formBoundary? (m : MediaType) : Option String :=
  if m.type = "multipart" ∧ m.subtype = "form-data" then m.params.lookup "boundary" else none

end MediaType

end ApiIntake.Http
