import ApiIntake.Text.Hex

/-!
# Socket addresses

An address with a port: `1.2.3.4:80`, or `[::1]:80` with brackets around an address of
eight groups, behind which a scope may stand as in `[fe80::1%1]:80`.  Two colons stand
for groups that are zero; an address is written with them in place of its longest run of
two or more such groups, and with its last two groups as four bytes if it is one of the
older kind in the newer form.
-/

namespace ApiIntake.Net

/-- An address with a port. -/
inductive SocketAddress where
  /-- An address of four bytes. -/
  | v4 (octets : List Nat) (port : Nat)
  /-- An address of eight groups of sixteen bits in a scope. -/
  | v6 (groups : List Nat) (scope port : Nat)
deriving DecidableEq, Repr

namespace SocketAddress

/-! ## Reading -/

/-- The value of digits of a base. -/
def valueOf (base : Nat) (digits : List Char) : Nat :=
  digits.foldl (fun n c => n * base + ((Text.hexValue? c).getD 0)) 0

/-- A number of at least one and at most `width` digits, not above `bound`. -/
def number (base width bound : Nat) (cs : List Char) : Option (Nat × List Char) :=
  let isDigit (c : Char) : Bool := if base = 16 then (Text.hexValue? c).isSome else c.isDigit
  let digits := cs.takeWhile isDigit
  let n := valueOf base digits
  if digits.isEmpty ∨ width < digits.length ∨ bound < n then none
  else some (n, cs.drop digits.length)

/-- A given character. -/
def char (c : Char) : List Char → Option (Unit × List Char)
  | d :: rest => if c = d then some ((), rest) else none
  | [] => none

/-- A byte in decimal digits, without zeros before it. -/
def octet (cs : List Char) : Option (Nat × List Char) := do
  let (n, rest) ← number 10 3 255 cs
  if cs.head? = some '0' ∧ rest.length + 1 < cs.length then none else some (n, rest)

/-- Four bytes with dots between them. -/
def octets (cs : List Char) : Option (List Nat × List Char) := do
  let (a, cs) ← octet cs
  let (_, cs) ← char '.' cs
  let (b, cs) ← octet cs
  let (_, cs) ← char '.' cs
  let (c, cs) ← octet cs
  let (_, cs) ← char '.' cs
  let (d, cs) ← octet cs
  some ([a, b, c, d], cs)

/-- At most `room` groups with colons between them, of which the last two may be given as
four bytes; whether they were is told as well. `first` says that no colon stands before
the first one. -/
def groups : Nat → Bool → List Char → (List Nat × Bool) × List Char
  | 0, _, cs => (([], false), cs)
  | room + 1, first, cs =>
    let behindColon : Option (List Char) := if first then some cs else (char ':' cs).map (·.2)
    let asBytes : Option (List Nat × List Char) :=
      if room = 0 then none else behindColon.bind octets
    match asBytes, behindColon.bind (number 16 4 0xFFFF) with
    | some ([a, b, c, d], rest), _ => (([a * 256 + b, c * 256 + d], true), rest)
    | _, some (g, rest) =>
      let ((more, bytes), rest) := groups room false rest
      ((g :: more, bytes), rest)
    | _, none => (([], false), cs)

/-- Eight groups, some of which two colons may stand for. -/
def eightGroups (cs : List Char) : Option (List Nat × List Char) := do
  let ((front, bytes), rest) := groups 8 true cs
  if front.length = 8 then some (front, rest)
  else if bytes then none
  else
    let (_, rest) ← char ':' rest
    let (_, rest) ← char ':' rest
    let ((back, _), rest) := groups (7 - front.length) true rest
    some (front ++ List.replicate (8 - front.length - back.length) 0 ++ back, rest)

/-- A colon and a port. -/
def port (cs : List Char) : Option (Nat × List Char) := do
  let (_, cs) ← char ':' cs
  number 10 cs.length 0xFFFF cs

/-- An address of four bytes with a port. -/
def readV4 (cs : List Char) : Option (SocketAddress × List Char) := do
  let (octets, cs) ← octets cs
  let (port, cs) ← port cs
  some (.v4 octets port, cs)

/-- A percent sign and a scope, if they stand there. -/
def scope (cs : List Char) : Option (Nat × List Char) :=
  match cs with
  | '%' :: rest => number 10 rest.length 0xFFFFFFFF rest
  | _ => some (0, cs)

/-- An address of eight groups in brackets with a port. -/
def readV6 (cs : List Char) : Option (SocketAddress × List Char) := do
  let (_, cs) ← char '[' cs
  let (groups, cs) ← eightGroups cs
  let (scope, cs) ← scope cs
  let (_, cs) ← char ']' cs
  let (port, cs) ← port cs
  some (.v6 groups scope port, cs)

/-- Reads an address. -/
def ofText? (s : String) : Option SocketAddress :=
  let whole : Option (SocketAddress × List Char) → Option SocketAddress
    | some (a, []) => some a
    | _ => none
  match whole (readV4 s.toList) with
  | some a => some a
  | none => whole (readV6 s.toList)

/-! ## Writing -/

/-- The number of zeros at the beginning. -/
def zeros (groups : List Nat) : Nat := (groups.takeWhile (· = 0)).length

/-- Where the longest run of zeros begins, the first of those that are equally long, and
how long it is. -/
def longestZeros : List Nat → Nat × Nat
  | [] => (0, 0)
  | g :: rest =>
    let here := zeros (g :: rest)
    let (start, length) := longestZeros rest
    if length ≤ here then (0, here) else (start + 1, length)

/-- Bytes with dots between them. -/
def octetsText (octets : List Nat) : String := ".".intercalate (octets.map toString)

/-- Groups in hexadecimal digits with colons between them. -/
def groupsText (groups : List Nat) : String :=
  ":".intercalate (groups.map fun g => String.ofList (Nat.toDigits 16 g))

/-- The text of eight groups. -/
def addressText (groups : List Nat) : String :=
  match groups with
  | [0, 0, 0, 0, 0, 0xFFFF, g, h] =>
    "::ffff:" ++ octetsText [g / 256, g % 256, h / 256, h % 256]
  | _ =>
    let (start, length) := longestZeros groups
    if length ≤ 1 then groupsText groups
    else groupsText (groups.take start) ++ "::" ++ groupsText (groups.drop (start + length))

/-- The text of an address. -/
def text : SocketAddress → String
  | .v4 octets port => octetsText octets ++ ":" ++ toString port
  | .v6 groups scope port =>
    "[" ++ addressText groups ++ (if scope = 0 then "" else "%" ++ toString scope) ++ "]:" ++
      toString port

end SocketAddress

end ApiIntake.Net
