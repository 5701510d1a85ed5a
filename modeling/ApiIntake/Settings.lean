import ApiIntake.OpenApi.Document
import ApiIntake.Json.Record
import ApiIntake.Text.Blank
import ApiIntake.Text.Glob

/-!
# Settings of the conversion

Which operations become tools and whom a server belongs to if nobody is named.
Operations are told apart by texts such as `GET /pets`: one is taken if no exclude
pattern matches it and, unless there are no include patterns, one of those does.
Settings are read from a file or from JSON; `Settings.check` refuses a blank
tenant and blank patterns.
-/

namespace ApiIntake

open ApiIntake.OpenApi (Method Reading)
open ApiIntake.Yaml (Value Scalar)

/-- Which operations become tools. -/
inductive Discovery where
  /-- All of them or none. -/
  | switch (on : Bool)
  /-- Those that patterns select. -/
  | patterns (includes excludes : List String)
deriving DecidableEq, Repr

namespace Discovery

/-- Whether any operation can be taken. -/
def isOn : Discovery → Bool
  | .switch on => on
  | .patterns .. => true

/-- The patterns of which one has to match. -/
def wanted : Discovery → List String
  | .switch _ => []
  | .patterns includes _ => includes

/-- The patterns of which none may match. -/
def unwanted : Discovery → List String
  | .switch _ => []
  | .patterns _ excludes => excludes

/-- Whether an operation is taken. -/
def selects (d : Discovery) (method : Method) (path : String) : Bool :=
  let operation := method.upper ++ " " ++ path
  d.isOn && !d.unwanted.any (fun p => Text.glob p operation) &&
    (d.wanted.isEmpty || d.wanted.any fun p => Text.glob p operation)

end Discovery

/-- Settings of the conversion. -/
structure Settings where
  /-- Whom a server belongs to if nobody is named. -/
  defaultTenant : String
  /-- Which operations become tools. -/
  discovery : Discovery
deriving DecidableEq, Repr

namespace Settings

/-- The settings that hold where nothing else is said. -/
def standard : Settings := ⟨"default", .switch true⟩

/-- Why settings are refused. -/
inductive Refusal where
  | blankTenant
  | blankPattern
deriving DecidableEq, Repr

/-- The text of a refusal. -/
def Refusal.message : Refusal → String
  | .blankTenant => "Configuration error: defaultTenant must be non-empty"
  | .blankPattern => "Configuration error: autoDiscover patterns must be non-empty"

/-- Checks that the tenant and all patterns are more than white space. -/
def check (s : Settings) : Except Refusal Unit :=
  if Text.isBlank s.defaultTenant then .error .blankTenant
  else if (s.discovery.wanted ++ s.discovery.unwanted).any Text.isBlank then
    .error .blankPattern
  else .ok ()

/-! ## Reading -/

/-- A list of patterns that may be absent; each is a text. -/
def patternsOf? (fields : List (String × Json)) (name : String) : Option (List String) :=
  Json.listOrEmpty? Json.text? fields name

/-- Reads the choice of operations: a truth value, or an object of pattern lists. -/
def discoveryOfJson? : Json → Option Discovery
  | .bool on => some (.switch on)
  | .obj fields =>
    if Json.onceEach ["include", "exclude"] fields then do
      let includes ← patternsOf? fields "include"
      let excludes ← patternsOf? fields "exclude"
      some (.patterns includes excludes)
    else none
  | _ => none

/-- The field for whom a server belongs to. -/
def tenantName : String := "defaultTenant"

/-- The field for which operations become tools. -/
def discoveryName : String := "autoDiscover"

/-- Reads settings from JSON, where absent fields mean the standard. -/
def ofJson? (j : Json) : Option Settings := do
  let fields ← j.record? [tenantName, discoveryName]
  let defaultTenant ←
    match fields.lookup tenantName with
    | none => some standard.defaultTenant
    | some v => v.text?
  let discovery ←
    match fields.lookup discoveryName with
    | none => some standard.discovery
    | some v => discoveryOfJson? v
  some { defaultTenant, discovery }

/-- The entries with a key, of a document as it is written. -/
def entriesNamed (entries : List (Value × Value)) (name : String) : List Value :=
  entries.filterMap fun (k, v) =>
    if Reading.written.fieldName? k.untagged = some name then some v else none

/-- Reads the tenant of a document: any scalar, by the way it is written. -/
def tenantOf? (v : Value) : Option String :=
  match v.untagged with
  | .scalar s text => some (match s with | .str s => s | _ => text)
  | _ => none

/-- Reads settings from a document.  A document without any node means the standard,
and so does one whose node is not written at all. -/
def ofValue? (v : Value) : Option Settings :=
  let entries? : Option (List (Value × Value)) :=
    match v.untagged with
    | .map entries => some entries
    | .scalar s text => if Reading.written.standsForNothing s text then some [] else none
    | .list _ => none
    | .tagged _ _ => none
  entries?.bind fun entries =>
    if !entries.all (fun e => (Reading.written.fieldName? e.1.untagged).isSome) then none
    else do
      let defaultTenant ←
        match entriesNamed entries tenantName with
        | [] => some standard.defaultTenant
        | [v] => tenantOf? v
        | _ => none
      let discovery ←
        match entriesNamed entries discoveryName with
        | [] => some standard.discovery
        | [v] => v.toJson?.bind discoveryOfJson?
        | _ => none
      some { defaultTenant, discovery }

/-- Why a file cannot be read as text. -/
inductive FileError where
  /-- There is no such file. -/
  | missing
  /-- It is a directory. -/
  | directory
  /-- Its path leads through a file as if that were a directory. -/
  | notDirectory
  /-- Its bytes are no text. -/
  | notText
deriving DecidableEq, Repr

/-- The text of an error. -/
def FileError.message : FileError → String
  | .missing => "No such file or directory (os error 2)"
  | .directory => "Is a directory (os error 21)"
  | .notDirectory => "Not a directory (os error 20)"
  | .notText => "stream did not contain valid UTF-8"

/-- Why a settings file cannot be used. -/
inductive LoadError where
  /-- It cannot be read. -/
  | file (e : FileError)
  /-- Its text is no document. -/
  | document (f : Yaml.Fault)
  /-- What it says is refused. -/
  | refused (r : Refusal)
deriving DecidableEq, Repr

/-- The text of an error. -/
def LoadError.message : LoadError → String
  | .file e => "IO error: " ++ e.message
  | .document f => "YAML error: " ++ f.message
  | .refused r => r.message

/-- The text of an error with its causes behind it. -/
def LoadError.chain : LoadError → String
  | .file e => (LoadError.file e).message ++ ": " ++ e.message
  | e => e.message

/-- The settings that a file says, given its bytes if they can be read, before they are
checked. -/
def read (file : Except FileError (List UInt8)) : Except LoadError Settings :=
  match file with
  | .error e => .error (.file e)
  | .ok bytes =>
    match Text.ofUtf8? bytes with
    | none => .error (.file .notText)
    | some text =>
      match Value.ofText text.toList with
      | .error f => .error (.document f)
      | .ok v =>
        match ofValue? v with
        | some s => .ok s
        | none => .error (.document .badForm)

/-- The settings that a file says. -/
def load (file : Except FileError (List UInt8)) : Except LoadError Settings := do
  let s ← read file
  match s.check with
  | .ok () => .ok s
  | .error r => .error (.refused r)

end Settings

end ApiIntake
