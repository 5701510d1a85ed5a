import ApiIntake.Yaml.Node
import ApiIntake.Json.Basic

/-!
# Data of a document

What the nodes of a document mean: a plain scalar is absent, a truth value, a number
or a text by its spelling, a quoted one is a text, a standard tag decides in place
of the spelling, and any other tag of the document stays on its value.  Aliases are
replaced by copies of what they stand for.  A scalar keeps the text it was written
with, for places where any scalar is taken as a text.
-/

namespace ApiIntake.Yaml

/-- The meaning of a scalar. -/
inductive Scalar where
  | null
  | bool (b : Bool)
  /-- A whole number of at most 64 bits. -/
  | int (n : Int)
  /-- A whole number beyond 64 bits and within 128. -/
  | huge (n : Int)
  | float (x : Binary64)
  | infinity (negative : Bool)
  | nan
  | str (s : String)
  /-- A scalar that is not what its tag says. -/
  | mistagged
deriving DecidableEq, Repr, Inhabited

/-- Data of a document. -/
inductive Value where
  /-- A scalar and the text it was written with. -/
  | scalar (s : Scalar) (text : String)
  | list (items : List Value)
  | map (entries : List (Value × Value))
  /-- A value under a tag of the document's own. -/
  | tagged (tag : String) (v : Value)
deriving Inhabited, Repr

/-! ## Spelling of scalars -/

namespace Scalar

/-- The value of a digit in a base of at most sixteen. -/
def digitIn? (base : Nat) (c : Char) : Option Nat :=
  (Text.hexValue? c).filter (· < base)

/-- The number that digits in a base stand for; there has to be one. -/
def digitsIn? (base : Nat) (ds : List Char) : Option Nat :=
  if ds.isEmpty then none
  else ds.foldlM (fun n d => (digitIn? base d).map (n * base + ·)) 0

/-- Whether the text, less a sign, is a zero with further digits behind it. -/
def hasLeadingZero (cs : List Char) : Bool :=
  let cs := match cs with
    | '-' :: r | '+' :: r => r
    | r => r
  match cs with
  | '0' :: d :: r => (d :: r).all Char.isDigit
  | _ => false

/-- A whole number without a sign: decimal without leading zeros, or in base
sixteen, eight or two behind `0x`, `0o` or `0b`. -/
def unsigned? (cs : List Char) : Option Nat :=
  match cs with
  | '0' :: 'x' :: r => digitsIn? 16 r
  | '0' :: 'o' :: r => digitsIn? 8 r
  | '0' :: 'b' :: r => digitsIn? 2 r
  | r => if hasLeadingZero r then none else digitsIn? 10 r

/-- A whole number with an optional sign. -/
def whole? : List Char → Option Int
  | '-' :: r => (unsigned? r).map fun n => -(n : Int)
  | '+' :: r => (unsigned? r).map fun n => (n : Int)
  | r => (unsigned? r).map fun n => (n : Int)

/-- A decimal number without a sign: digits with at most one point among or around
them, and an optional power of ten. -/
def decimal? (cs : List Char) : Option (List Char × List Char × Int) :=
  let (whole, rest) := cs.span Char.isDigit
  let (frac, rest) := match rest with
    | '.' :: r => r.span Char.isDigit
    | r => ([], r)
  if whole.isEmpty ∧ frac.isEmpty then none
  else match rest with
    | [] => some (whole, frac, 0)
    | 'e' :: r | 'E' :: r =>
      let (minus, ds) := match r with
        | '-' :: r => (true, r)
        | '+' :: r => (false, r)
        | r => (false, r)
      if ds.isEmpty ∨ !ds.all Char.isDigit then none
      else
        let n : Int := Text.digitsValue ds
        some (whole, frac, if minus then -n else n)
    | _ => none

/-- A number with a fraction or a power of ten, or one of the names of what is no
finite number. -/
def float? (cs : List Char) : Option Scalar :=
  let s := String.ofList cs
  let infinities := [".inf", ".Inf", ".INF"]
  if infinities.contains s ∨ (infinities.map ("+" ++ ·)).contains s then some (.infinity false)
  else if (infinities.map ("-" ++ ·)).contains s then some (.infinity true)
  else if [".nan", ".NaN", ".NAN"].contains s then some .nan
  else
    let (minus, cs) := match cs with
      | '-' :: r => (true, r)
      | '+' :: r => (false, r)
      | r => (false, r)
    match decimal? cs with
    | some (whole, frac, e) =>
      let n := Text.digitsValue (whole ++ frac)
      (Binary64.ofDecimal? minus n (e - frac.length)).map .float
    | none => none

/-- The names of the absent value. -/
def nullNames : List String := ["null", "Null", "NULL", "~"]

/-- A truth value. -/
def bool? (s : String) : Option Bool :=
  if ["true", "True", "TRUE"].contains s then some true
  else if ["false", "False", "FALSE"].contains s then some false
  else none

/-- A whole number that fits in 64 or 128 bits. -/
def int? (cs : List Char) : Option Scalar :=
  (whole? cs).bind fun n =>
    if -0x8000000000000000 ≤ n ∧ n < 0x10000000000000000 then some (.int n)
    else if -0x80000000000000000000000000000000 ≤ n ∧ n < 0x100000000000000000000000000000000 then
      some (.huge n)
    else none

/-- The meaning of a plain scalar. -/
def ofPlain (text : String) : Scalar :=
  let cs := text.toList
  if text.isEmpty ∨ nullNames.contains text then .null
  else match bool? text with
    | some b => .bool b
    | none =>
      match int? cs with
      | some n => n
      | none =>
        if hasLeadingZero cs then .str text
        else (float? cs).getD (.str text)

/-- The standard tag with a name. -/
def standardTag (name : String) : String := "tag:yaml.org,2002:" ++ name

/-- The meaning of a scalar with a standard tag. -/
def ofTagged (tag text : String) : Scalar :=
  let found : Option Scalar :=
    if tag = standardTag "bool" then (bool? text).map .bool
    else if tag = standardTag "int" then int? text.toList
    else if tag = standardTag "float" then float? text.toList
    else if tag = standardTag "null" then
      if nullNames.contains text then some .null else none
    else some (.str text)
  found.getD .mistagged

end Scalar

/-! ## From nodes to values -/

/-- The tag of the document's own that a full tag is, without its sign; a standard
tag is none. -/
def ownTag? (tag : Option String) : Option String :=
  match tag.map String.toList with
  | some ['!'] => some "!"
  | some ('!' :: r) => some (String.ofList r)
  | _ => none

/-- The node that an alias stands for, any other node itself. -/
def Document.deref (d : Document) : Node → StateT Nat (Except Fault) Node
  | .alias number => do
    match ← get with
    | 0 => throw .tooManyAliases
    | left + 1 =>
      set left
      match d.anchored.lookup number with
      | some n => return n
      | none => throw .unknownAlias
  | n => return n

/-- The value of a node, of at most `depth` collections inside one another.  The
state counts the aliases that may still be replaced. -/
def Document.value (d : Document) : Nat → Node → StateT Nat (Except Fault) Value
  | depth, n => do
    let own (tag : Option String) (v : Value) : Value :=
      match ownTag? tag with
      | some t => .tagged t v
      | none => v
    match depth, ← d.deref n with
    | _, .scalar tag text plain =>
      match tag with
      | none => return .scalar (if plain then .ofPlain text else .str text) text
      | some t =>
        if (ownTag? tag).isSome then
          return own tag (.scalar (if plain then .ofPlain text else .str text) text)
        else return .scalar (.ofTagged t text) text
    | 0, _ => throw .tooDeep
    | depth + 1, .sequence tag items => return own tag (.list (← items.mapM (d.value depth)))
    | depth + 1, .mapping tag entries =>
      return own tag (.map (← entries.mapM fun (k, v) => do
        return (← d.value depth k, ← d.value depth v)))
    | _, .alias _ => throw .unknownAlias

/-- The greatest number of collections inside one another. -/
def depthLimit : Nat := 128

/-- The value of a text; a text without any node is absent. -/
def Value.ofText (text : List Char) : Except Fault Value := do
  match ← Document.ofText text with
  | none => .ok (.scalar .null "")
  | some d => (d.value depthLimit d.root).run' (100 * d.root.weight)

namespace Value

mutual

/-- Whether two values are equal, however their scalars are written and in whatever
order the entries of their mappings stand. -/
def same : Value → Value → Bool
  | .scalar s _, .scalar t _ =>
    match s, t with
    | .float x, .float y => x.sameNumber y
    | s, t => s = t
  | .list vs, .list ws => sameItems vs ws
  | .map es, .map fs => es.length = fs.length && haveSame fs es
  | .tagged t v, .tagged u w => t = u && same v w
  | _, _ => false

/-- `same` item by item. -/
def sameItems : List Value → List Value → Bool
  | [], [] => true
  | v :: vs, w :: ws => same v w && sameItems vs ws
  | _, _ => false

/-- Whether each of the second entries has an equal one among the first. -/
def haveSame (fs : List (Value × Value)) : List (Value × Value) → Bool
  | [] => true
  | (k, v) :: rest => fs.any (fun f => same k f.1 && same v f.2) && haveSame fs rest

end

/-- Whether no key occurs twice. -/
def keysDiffer : List (Value × Value) → Bool
  | [] => true
  | (k, _) :: rest => !rest.any (fun e => same k e.1) && keysDiffer rest

mutual

/-- Checks that the value can be held as it is: no number beyond 64 bits, no scalar that
is not what its tag says, no key twice in one mapping. -/
def check : Value → Except Fault Unit
  | .scalar (.huge _) _ | .scalar .mistagged _ => .error .badScalar
  | .scalar _ _ => .ok ()
  | .list items => checkItems items
  | .map entries => if keysDiffer entries then checkEntries entries else .error .duplicateKey
  | .tagged _ v => check v

/-- `check` on every item. -/
def checkItems : List Value → Except Fault Unit
  | [] => .ok ()
  | v :: rest => do
    check v
    checkItems rest

/-- `check` on every key and value. -/
def checkEntries : List (Value × Value) → Except Fault Unit
  | [] => .ok ()
  | (k, v) :: rest => do
    check k
    check v
    checkEntries rest

end

/-- The value without the tags around it. -/
def untagged : Value → Value
  | .tagged _ v => untagged v
  | v => v

/-- The value of the first entry whose key is the given text. -/
def get? (key : String) : Value → Option Value
  | .map entries => (entries.find? fun e => same e.1 (.scalar (.str key) key)).map (·.2)
  | _ => none

mutual

/-- A JSON value as data. -/
def ofJson : Json → Value
  | .null => .scalar .null "null"
  | .bool b => .scalar (.bool b) ""
  | .int n => .scalar (.int n) ""
  | .float x => .scalar (.float x) ""
  | .str s => .scalar (.str s) s
  | .arr items => .list (ofJsonItems items)
  | .obj members => .map (ofJsonMembers members)

/-- `ofJson` on every item. -/
def ofJsonItems : List Json → List Value
  | [] => []
  | v :: rest => ofJson v :: ofJsonItems rest

/-- `ofJson` on every member. -/
def ofJsonMembers : List (String × Json) → List (Value × Value)
  | [] => []
  | (k, v) :: rest => (.scalar (.str k) k, ofJson v) :: ofJsonMembers rest

end

mutual

/-- The JSON value of data: what is no finite number becomes `null`.  A tag or a key
that is no text has no counterpart. -/
def toJson? : Value → Option Json
  | .scalar s _ =>
    match s with
    | .null | .infinity _ | .nan => some .null
    | .bool b => some (.bool b)
    | .int n => some (.int n)
    | .huge _ | .mistagged => none
    | .float x => some (.float x)
    | .str s => some (.str s)
  | .list items => (toJsonItems? items).map .arr
  | .map entries => (toJsonEntries? entries).map .obj
  | .tagged _ _ => none

/-- `toJson?` on every item. -/
def toJsonItems? : List Value → Option (List Json)
  | [] => some []
  | v :: rest => do
    let v ← toJson? v
    let rest ← toJsonItems? rest
    some (v :: rest)

/-- `toJson?` on every entry. -/
def toJsonEntries? : List (Value × Value) → Option (List (String × Json))
  | [] => some []
  | (k, v) :: rest => do
    match k with
    | .scalar (.str k) _ =>
      let v ← toJson? v
      let rest ← toJsonEntries? rest
      some ((k, v) :: rest)
    | _ => none

end

end Value

end ApiIntake.Yaml
