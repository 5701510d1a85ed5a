import ApiIntake.Net.SocketAddress
import ApiIntake.Text.Digits
import ApiIntake.Settings
import ApiIntake.Feed.Broadcast

/-!
# The command line

Every setting of the program is an option `--name value` or `--name=value`, and may be
given as an environment variable instead; an option wins over its variable.  Options are
read from left to right, and a value behind an option is checked when the next option or
the end of the line is reached.
-/

namespace ApiIntake.CommandLine

open ApiIntake.Net (SocketAddress)

/-! ## Switches -/

/-- What an option sets. -/
inductive Switch where
  | bind
  | databaseUrl
  | dbMaxConnections
  | nodeId
  | converterConfig
  | defaultTenant
  | maxUploadBytes
  | broadcastCapacity
  | logLevel
  | logFormat
deriving DecidableEq, Repr

namespace Switch

/-- All options, in the order in which their variables are read. -/
def all : List Switch :=
  [.bind, .databaseUrl, .dbMaxConnections, .nodeId, .converterConfig, .defaultTenant,
   .maxUploadBytes, .broadcastCapacity, .logLevel, .logFormat]

/-- The words of the name. -/
def words : Switch → List String
  | .bind => ["bind"]
  | .databaseUrl => ["database", "url"]
  | .dbMaxConnections => ["db", "max", "connections"]
  | .nodeId => ["node", "id"]
  | .converterConfig => ["converter", "config"]
  | .defaultTenant => ["default", "tenant"]
  | .maxUploadBytes => ["max", "upload", "bytes"]
  | .broadcastCapacity => ["broadcast", "capacity"]
  | .logLevel => ["log", "level"]
  | .logFormat => ["log", "format"]

/-- The name behind two hyphens. -/
def name (s : Switch) : String := "-".intercalate s.words

/-- The environment variable. -/
def environmentName (s : Switch) : String :=
  "UNRELATED_IMPORT_" ++ "_".intercalate (s.words.map String.toUpper)

/-- What the option is for. -/
def summary : Switch → String
  | .bind => "Address to listen on"
  | .databaseUrl => "Database URL; without it configurations are kept in memory"
  | .dbMaxConnections => "Most connections to the database"
  | .nodeId => "Name of this node among those of one database; a random one if unset"
  | .converterConfig => "Settings file of the conversion, YAML or JSON"
  | .defaultTenant => "Tenant of imports that name none; wins over the settings file"
  | .maxUploadBytes => "Most bytes of a request body"
  | .broadcastCapacity => "Announcements that wait for a subscriber at most"
  | .logLevel => "Log filter"
  | .logFormat => "Log format, text or json"

/-- The option with a name. -/
def ofName? (name : String) : Option Switch := all.find? fun s => s.name = name

end Switch

/-- How log lines are written. -/
inductive LogStyle where
  | text
  | json
deriving DecidableEq, Repr

/-- The settings of the program. -/
structure Arguments where
  /-- The address to listen on. -/
  bind : SocketAddress
  /-- The address of the database. -/
  databaseUrl : Option String
  /-- The most connections to the database. -/
  dbMaxConnections : Nat
  /-- The name of the node. -/
  nodeId : Option String
  /-- The settings file of the conversion. -/
  converterConfig : Option String
  /-- The tenant of imports that name none. -/
  defaultTenant : Option String
  /-- The most bytes of a request body. -/
  maxUploadBytes : Nat
  /-- How many announcements wait for a subscriber. -/
  broadcastCapacity : Nat
  /-- The log filter. -/
  logLevel : String
  /-- How log lines are written. -/
  logFormat : LogStyle
deriving DecidableEq, Repr

/-- The settings if nothing is given. -/
def Arguments.standard : Arguments where
  bind := .v4 [127, 0, 0, 1] 5235
  databaseUrl := none
  dbMaxConnections := 5
  nodeId := none
  converterConfig := none
  defaultTenant := none
  maxUploadBytes := 10 * 1024 * 1024
  broadcastCapacity := Feed.Broadcast.defaultCapacity
  logLevel := "info"
  logFormat := .text

/-! ## Errors -/

/-- Why a command line stops the program. -/
inductive UsageError where
  /-- Help was asked for. -/
  | help
  /-- The version was asked for. -/
  | version
  /-- There is no such option, and arguments without one are not taken. -/
  | unknownArgument (argument : String)
  /-- An option has no value, or an empty one where that says nothing. -/
  | missingValue (switch : Switch)
  /-- A value is not one of those that an option takes. -/
  | impossibleValue (switch : Switch) (value : String)
  /-- A value cannot be read. -/
  | badValue (switch : Switch) (value : String)
  /-- An option is given twice. -/
  | repeated (switch : Switch)
  /-- An option that takes no value has one. -/
  | needlessValue (argument : String)
deriving DecidableEq, Repr

/-- The text of an error. -/
def UsageError.message : UsageError → String
  | .help => "help"
  | .version => "version"
  | .unknownArgument a => "unexpected argument '" ++ a ++ "' found"
  | .missingValue s => "a value is required for '--" ++ s.name ++ "' but none was supplied"
  | .impossibleValue s v => "invalid value '" ++ v ++ "' for '--" ++ s.name ++ "'"
  | .badValue s v => "invalid value '" ++ v ++ "' for '--" ++ s.name ++ "'"
  | .repeated s => "the argument '--" ++ s.name ++ "' cannot be used multiple times"
  | .needlessValue a => "unexpected value for '" ++ a ++ "' found; no more were expected"

/-! ## Values -/

/-- Reads a whole number between zero and `bound`, which may be written as minus zero. -/
def unsigned? (bound : Nat) (s : String) : Option Nat := do
  let n ←
    match s.toList with
    | '-' :: rest =>
      if !rest.isEmpty ∧ rest.all (· = '0') then some 0 else none
    | cs => Text.signedNatural? cs
  if n ≤ bound then some n else none

/-- Reads a whole number of 64 bits. -/
def size? (s : String) : Option Nat := do
  let n ← Text.signedNatural? s.toList
  if n < 0x10000000000000000 then some n else none

/-- Sets what an option says. -/
def Arguments.set (a : Arguments) (s : Switch) (value : String) : Except UsageError Arguments :=
  let read {α : Type} (v : Option α) (f : α → Arguments) : Except UsageError Arguments :=
    match v with
    | some v => .ok (f v)
    | none => .error (.badValue s value)
  match s with
  | .bind => read (SocketAddress.ofText? value) fun v => { a with bind := v }
  | .databaseUrl => .ok { a with databaseUrl := some value }
  | .dbMaxConnections => read (unsigned? 0xFFFFFFFF value) fun v => { a with dbMaxConnections := v }
  | .nodeId => .ok { a with nodeId := some value }
  | .converterConfig =>
    if value.isEmpty then .error (.missingValue s)
    else .ok { a with converterConfig := some value }
  | .defaultTenant => .ok { a with defaultTenant := some value }
  | .maxUploadBytes => read (size? value) fun v => { a with maxUploadBytes := v }
  | .broadcastCapacity => read (size? value) fun v => { a with broadcastCapacity := v }
  | .logLevel => .ok { a with logLevel := value }
  | .logFormat =>
    if value = "text" then .ok { a with logFormat := .text }
    else if value = "json" then .ok { a with logFormat := .json }
    else .error (.impossibleValue s value)

/-! ## Reading a command line -/

/-- How far a command line was read. -/
structure Progress where
  /-- The settings so far. -/
  arguments : Arguments
  /-- The options that were given. -/
  given : List Switch
  /-- The option that was read last and its value, both not checked yet. -/
  pending : Option (Switch × Option String)

namespace Progress

/-- Nothing was read. -/
def start : Progress := ⟨.standard, [], none⟩

/-- Takes the value of an option. -/
def give (p : Progress) (s : Switch) (value : String) : Except UsageError Progress := do
  if p.given.contains s then throw (.repeated s)
  let arguments ← p.arguments.set s value
  return { p with arguments, given := s :: p.given }

/-- Checks and takes the option that was read last. -/
def settle (p : Progress) : Except UsageError Progress :=
  match p.pending with
  | none => .ok p
  | some (s, none) => .error (.missingValue s)
  | some (s, some value) => ({ p with pending := none }).give s value

/-- Asks for help or the version, which counts once what stands before it is right. -/
def ask (p : Progress) (e : UsageError) : Except UsageError Progress :=
  match p.settle with
  | .ok _ => .error e
  | .error e => .error e

/-- Reads an argument that begins with two hyphens, given without them. -/
def long (p : Progress) (argument : List Char) : Except UsageError Progress :=
  let name := String.ofList (argument.takeWhile (· ≠ '='))
  let value : Option String :=
    match argument.drop name.length with
    | _ :: value => some (String.ofList value)
    | [] => none
  let shown := "--" ++ String.ofList argument
  if name = "help" ∨ name = "version" then
    if value.isSome then .error (.needlessValue shown)
    else p.ask (if name = "help" then .help else .version)
  else
    match Switch.ofName? name with
    | none => .error (.unknownArgument shown)
    | some s => do
      let p ← p.settle
      match value with
      | some value => ({ p with pending := none }).give s value
      | none => return { p with pending := some (s, none) }

/-- Reads one argument. -/
def argument (p : Progress) (a : String) : Except UsageError Progress :=
  match a.toList with
  | '-' :: '-' :: rest => p.long rest
  | '-' :: 'h' :: _ => p.ask .help
  | '-' :: 'V' :: _ => p.ask .version
  | '-' :: _ :: _ => .error (.unknownArgument a)
  | _ =>
    match p.pending with
    | some (s, none) => .ok { p with pending := some (s, some a) }
    | _ => .error (.unknownArgument a)

/-- Reads the arguments; nothing may stand behind two hyphens alone. -/
def read (p : Progress) : List String → Except UsageError Progress
  | [] => p.settle
  | "--" :: [] => p.settle
  | "--" :: a :: _ => .error (.unknownArgument a)
  | a :: rest => do
    let p ← p.argument a
    p.read rest

/-- Takes the variables of the options that were not given. -/
def environment (p : Progress) (lookup : String → Option String) : Except UsageError Progress :=
  (Switch.all.filter fun s => !p.given.contains s).foldlM (fun p s =>
    match lookup s.environmentName with
    | some value => p.give s value
    | none => .ok p) p

end Progress

/-- Reads a command line and the environment. -/
def Arguments.read (arguments : List String) (lookup : String → Option String) :
    Except UsageError Arguments := do
  let p ← Progress.start.read arguments
  let p ← p.environment lookup
  return p.arguments

/-! ## Settings of the conversion -/

/-- Why there are no settings of the conversion. -/
inductive SettingsError where
  /-- The settings file cannot be used. -/
  | file (path : String) (e : Settings.LoadError)
  /-- The settings are refused. -/
  | refused (r : Settings.Refusal)
deriving DecidableEq, Repr

/-- The text of an error with its causes behind it. -/
def SettingsError.message : SettingsError → String
  | .file path e => "load converter config " ++ path ++ ": " ++ e.chain
  | .refused r => "invalid converter config: " ++ r.message

/-- The settings of the conversion: those of the settings file, if one is named, with the
tenant of the command line. -/
def Arguments.settings (a : Arguments) (file : String → Except Settings.FileError (List UInt8)) :
    Except SettingsError Settings := do
  let s : Settings ←
    match a.converterConfig with
    | none => .ok .standard
    | some path =>
      match Settings.load (file path) with
      | .ok s => .ok s
      | .error e => .error (.file path e)
  let s := { s with defaultTenant := a.defaultTenant.getD s.defaultTenant }
  match s.check with
  | .ok () => .ok s
  | .error r => .error (.refused r)

end ApiIntake.CommandLine
