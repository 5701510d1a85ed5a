import ApiIntake.Yaml.Token

/-!
# Nodes of a document

The tree of scalars, sequences, mappings and aliases that the tokens of a document
spell out, with every tag written in full.  An anchor gives the node behind it a
number, the count of the anchor names known so far; an alias holds such a number and
stands for the node that carried it last in the whole document.
-/

namespace ApiIntake.Yaml

/-- A node. -/
inductive Node where
  /-- A scalar by its tag, its text and whether it is plain. -/
  | scalar (tag : Option String) (text : String) (plain : Bool)
  | sequence (tag : Option String) (items : List Node)
  | mapping (tag : Option String) (entries : List (Node × Node))
  /-- The node with a number. -/
  | alias (number : Nat)
deriving Inhabited, Repr

namespace Node

/-- The absent node. -/
def empty : Node := .scalar none "" true

mutual

/-- How many marks the node is written with: one for a scalar or an alias, two
around the parts of a collection. -/
def weight : Node → Nat
  | .scalar .. => 1
  | .alias _ => 1
  | .sequence _ items => 2 + weightItems items
  | .mapping _ entries => 2 + weightEntries entries

/-- The weights of all items. -/
def weightItems : List Node → Nat
  | [] => 0
  | n :: rest => n.weight + weightItems rest

/-- The weights of all keys and values. -/
def weightEntries : List (Node × Node) → Nat
  | [] => 0
  | (k, v) :: rest => k.weight + v.weight + weightEntries rest

end

end Node

/-- A document: its node, and the nodes that aliases stand for by number. -/
structure Document where
  /-- The outermost node. -/
  root : Node
  /-- The nodes with a number. -/
  anchored : List (Nat × Node)

/-- What is known while tokens are turned into nodes. -/
structure Composer where
  /-- The tokens still to be read. -/
  tokens : List Token
  /-- The number of tokens read. -/
  place : Nat
  /-- The declared tag handles. -/
  handles : List (String × String)
  /-- The number of each anchor name. -/
  names : List (String × Nat)
  /-- The numbers given out, the last one first, each with a serial mark. -/
  given : List (Nat × Nat)
  /-- The finished nodes by serial mark. -/
  finished : List (Nat × Node)

/-- A step that reads tokens or finds a fault. -/
abbrev ComposeM := StateT Composer (Except Fault)

namespace Composer

/-- The next token. -/
def peek : ComposeM (Option Token) := do return (← get).tokens.head?

/-- Past the next token. -/
def advance : ComposeM Unit :=
  modify fun s => { s with tokens := s.tokens.tail, place := s.place + 1 }

/-- The tokens here make no node. -/
def fail {α : Type} : ComposeM α := do throw (.badStructure (← get).place)

/-- Whether the next token is one of the given ones. -/
def nextIn (ts : List (Option Token)) : ComposeM Bool := do return ts.contains (← peek)

/-- Gives an anchor name its number, and a serial mark under which the node will be
kept. -/
def giveNumber (name : String) : ComposeM Nat := do
  let s ← get
  let number := s.names.length
  let serial := s.given.length
  let others := s.names.filter (·.1 ≠ name)
  set { s with names := (name, number) :: others, given := (number, serial) :: s.given }
  return serial

/-- The full form of a tag. -/
def fullTag (handle suffix : String) : ComposeM String := do
  if handle.isEmpty then return suffix
  else match (← get).handles.lookup handle with
    | some uri => return uri ++ suffix
    | none => throw .unknownHandle

/-- An anchor and a tag in either order. -/
def properties : ComposeM (Option Nat × Option String) := do
  let anchor : ComposeM (Option Nat) := do
    match ← peek with
    | some (.anchor name) => advance; return some (← giveNumber name)
    | _ => return none
  let tag : ComposeM (Option String) := do
    match ← peek with
    | some (.tag handle suffix) => advance; return some (← fullTag handle suffix)
    | _ => return none
  match ← anchor with
  | some a => return (some a, ← tag)
  | none =>
    let t ← tag
    match t with
    | some _ => return (← anchor, t)
    | none => return (none, none)

mutual

/-- A node.  `block` says that block collections may begin here, and `indentless`
that the items of a sequence may stand without an indentation of their own. -/
def node (block indentless : Bool) : Nat → ComposeM Node
  | 0 => fail
  | fuel + 1 => do
    match ← peek with
    | some (.alias name) =>
      match (← get).names.lookup name with
      | some number => advance; return .alias number
      | none => throw .unknownAlias
    | _ =>
      let (anchor, tag) ← properties
      let n ← content block indentless anchor.isSome tag fuel
      match anchor with
      | some serial => modify fun s => { s with finished := (serial, n) :: s.finished }
      | none => pure ()
      return n

/-- A node behind its anchor and tag. -/
def content (block indentless anchored : Bool) (tag : Option String) : Nat → ComposeM Node
  | 0 => fail
  | fuel + 1 => do
    match ← peek with
    | some .blockEntry =>
      if indentless then return .sequence tag (← indentlessItems fuel)
      else unwritten
    | some (.scalar text plain) =>
      advance
      -- the sign alone in front of a scalar says nothing
      return .scalar (tag.filter (· ≠ "!")) text plain
    | some .flowSequenceStart => advance; return .sequence tag (← flowItems true fuel)
    | some .flowMappingStart => advance; return .mapping tag (← flowEntries true fuel)
    | some .blockSequenceStart =>
      if block then advance; return .sequence tag (← blockItems fuel)
      else unwritten
    | some .blockMappingStart =>
      if block then advance; return .mapping tag (← blockEntries fuel)
      else unwritten
    | _ => unwritten
where
  /-- An anchor or a tag may stand alone, and then the node is absent. -/
  unwritten : ComposeM Node := do
    if anchored ∨ tag.isSome then return .scalar tag "" true else fail

/-- A node, unless one of the given tokens comes next. -/
def nodeUnless (ts : List (Option Token)) (block indentless : Bool) : Nat → ComposeM Node
  | 0 => fail
  | fuel + 1 => do
    if ← nextIn ts then return Node.empty else node block indentless fuel

/-- The items of a block sequence, up to its end. -/
def blockItems : Nat → ComposeM (List Node)
  | 0 => fail
  | fuel + 1 => do
    match ← peek with
    | some .blockEntry =>
      advance
      let n ← nodeUnless [some .blockEntry, some .blockEnd] true false fuel
      return n :: (← blockItems fuel)
    | some .blockEnd => advance; return []
    | _ => fail

/-- The items of a sequence without an indentation of its own. -/
def indentlessItems : Nat → ComposeM (List Node)
  | 0 => fail
  | fuel + 1 => do
    match ← peek with
    | some .blockEntry =>
      advance
      let n ← nodeUnless [some .blockEntry, some .key, some .value, some .blockEnd] true false fuel
      return n :: (← indentlessItems fuel)
    | _ => return []

/-- The entries of a block mapping, up to its end. -/
def blockEntries : Nat → ComposeM (List (Node × Node))
  | 0 => fail
  | fuel + 1 => do
    let ends := [some .key, some .value, some .blockEnd]
    match ← peek with
    | some .key =>
      advance
      let k ← nodeUnless ends true true fuel
      let v ←
        if (← peek) = some .value then do
          advance
          nodeUnless ends true true fuel
        else pure Node.empty
      return (k, v) :: (← blockEntries fuel)
    | some .blockEnd => advance; return []
    | _ => fail

/-- The items of a flow sequence, up to its end.  An item with a key is a mapping
with one entry. -/
def flowItems (first : Bool) : Nat → ComposeM (List Node)
  | 0 => fail
  | fuel + 1 => do
    if (← peek) = some .flowSequenceEnd then advance; return []
    else
      if !first then
        if (← peek) = some .flowEntry then advance else fail
      match ← peek with
      | some .flowSequenceEnd => advance; return []
      | some .key =>
        advance
        let ends := [some .flowEntry, some .flowSequenceEnd]
        let k ←
          if ← nextIn (some .value :: ends) then do
            advance
            pure Node.empty
          else node false false fuel
        let v ←
          if (← peek) = some .value then do
            advance
            nodeUnless ends false false fuel
          else pure Node.empty
        return .mapping none [(k, v)] :: (← flowItems false fuel)
      | _ =>
        let n ← node false false fuel
        return n :: (← flowItems false fuel)

/-- The entries of a flow mapping, up to its end. -/
def flowEntries (first : Bool) : Nat → ComposeM (List (Node × Node))
  | 0 => fail
  | fuel + 1 => do
    let ends := [some .flowEntry, some .flowMappingEnd]
    if (← peek) = some .flowMappingEnd then advance; return []
    else
      if !first then
        if (← peek) = some .flowEntry then advance else fail
      match ← peek with
      | some .flowMappingEnd => advance; return []
      | some .key =>
        advance
        let k ← nodeUnless (some .value :: ends) false false fuel
        let v ←
          if (← peek) = some .value then do
            advance
            nodeUnless ends false false fuel
          else pure Node.empty
        return (k, v) :: (← flowEntries false fuel)
      | _ =>
        let k ← node false false fuel
        return (k, Node.empty) :: (← flowEntries false fuel)

end

/-- Past directives; each handle and the version may be declared once, and the
version is one that is understood. -/
def directives (seenVersion : Bool) :
    Nat → List (String × String) → ComposeM (Bool × List (String × String))
  | 0, _ => fail
  | fuel + 1, seen => do
    match ← peek with
    | some (.version major minor) =>
      if seenVersion ∨ major ≠ 1 ∨ (minor ≠ 1 ∧ minor ≠ 2) then fail
      else advance; directives true fuel seen
    | some (.handle name uri) =>
      if (seen.lookup name).isSome then fail
      else advance; directives seenVersion fuel ((name, uri) :: seen)
    | _ => return (seenVersion || !seen.isEmpty, seen)

/-- Past the marks that end a document. -/
def skipEnds : Nat → ComposeM Unit
  | 0 => pure ()
  | fuel + 1 => do
    if (← peek) = some .documentEnd then
      advance
      skipEnds fuel

/-- The handles that need no declaration. -/
def standardHandles : List (String × String) := [("!", "!"), ("!!", "tag:yaml.org,2002:")]

/-- The one document of a token list, or `none` if there is nothing. -/
def document (fuel : Nat) : ComposeM (Option Node) := do
  match ← peek with
  | none => return none
  | some _ =>
    let (declared, handles) ← directives false fuel []
    modify fun s => { s with handles := handles ++ standardHandles }
    if declared ∧ (← peek) ≠ some .documentStart then fail
    let root ←
      if (← peek) = some .documentStart then do
        advance
        match ← peek with
        | some (.version ..) | some (.handle ..) | some .documentStart | some .documentEnd | none =>
          pure Node.empty
        | _ => node true false fuel
      else node true false fuel
    skipEnds fuel
    match ← peek with
    | none => return some root
    | some _ => throw .manyDocuments

end Composer

/-- The document that a token list spells out; `none` if it holds nothing. -/
def Document.ofTokens (tokens : List Token) : Except Fault (Option Document) := do
  let start : Composer := ⟨tokens, 0, [], [], [], []⟩
  let (root, s) ← (Composer.document (4 * tokens.length + 8)).run start
  match root with
  | none => .ok none
  | some root =>
    let anchored := s.given.filterMap fun (number, serial) =>
      (s.finished.lookup serial).map fun n => (number, n)
    .ok (some { root, anchored })

/-- The document that a text holds. -/
def Document.ofText (text : List Char) : Except Fault (Option Document) := do
  Document.ofTokens (← Token.scan text)

end ApiIntake.Yaml
