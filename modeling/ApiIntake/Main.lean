import ApiIntake.CommandLine.Arguments
import ApiIntake.Import.Local

/-!
# The program

Reads the command line, the environment and the settings file, and then imports the
document on standard input.
-/

namespace ApiIntake

open ApiIntake.CommandLine

/-- The lines that explain the options. -/
def usage : List String :=
  "Import OpenAPI documents as MCP server configurations" :: "" :: "Options:" ::
    (Switch.all.map fun s => "  --" ++ s.name ++ " <value>  " ++ s.summary ++ " [env: " ++
      s.environmentName ++ "]") ++ ["  -h, --help", "  -V, --version"]

/-- The version. -/
def programVersion : String := "0.2.0"

/-- The bytes of a file. -/
def fileBytes (path : String) : IO (Except Settings.FileError (List UInt8)) := do
  try return .ok (← IO.FS.readBinFile path).toList
  catch
  | .inappropriateType .. => return .error .directory
  | _ => return .error .missing

/-- The variables that are set. -/
def readEnvironment : IO (List (String × String)) :=
  Switch.all.filterMapM fun s => do
    return (← IO.getEnv s.environmentName).map (s.environmentName, ·)

end ApiIntake

open ApiIntake in
/-- Runs the program. -/
def main (arguments : List String) : IO UInt32 := do
  let environment ← readEnvironment
  match CommandLine.Arguments.read arguments fun name => environment.lookup name with
  | .error .help =>
    usage.forM IO.println
    return 0
  | .error .version =>
    IO.println programVersion
    return 0
  | .error e =>
    IO.eprintln ("error: " ++ e.message)
    return 2
  | .ok a =>
    let file ← match a.converterConfig with
      | some path => fileBytes path
      | none => pure (.error .missing)
    match a.settings fun _ => file with
    | .error e =>
      IO.eprintln ("Error: " ++ e.message)
      return 1
    | .ok settings =>
      let document := (← (← IO.getStdin).readBinToEnd).toList
      let node := Import.Local.ofCapacity a.broadcastCapacity
      let bench := Import.Local.bench settings
      let (ending, _) := bench.importDocument false document .byConvention node
      match ending.stored? with
      | some config =>
        IO.println config.contentText
        return 0
      | none =>
        IO.eprintln (ending.reason?.getD "")
        return 1
