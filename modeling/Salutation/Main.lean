/-
The program: it gathers what a run needs to know, runs, and prints what comes of it.

Only here does anything touch the outside world.  The files that matter are known from the
command line and the variables, so they are read beforehand.
-/
import Salutation.Run

namespace Salutation

/-- The variables that a run reads. -/
def variableNames : List String := [
  "GREETER_NAME", "GREETER_MESSAGE", "GREETER_FORMAT", "GREETER_VERBOSITY",
  "GREETER_CONFIG_HOME", "XDG_CONFIG_HOME", "HOME", "RUST_LOG"]

/-- The environment that a list of variables makes. -/
def environmentOf (values : List (String × Bytes)) : Environment := fun name =>
  (values.find? (·.1 = name)).map (·.2)

/-- The file system in which a list of paths has known entries. -/
def filesOf (entries : List (Path × Entry)) : Files := fun path =>
  match entries.find? (·.1 = path) with
  | some (_, entry) => entry
  | none => .missing

end Salutation

open Salutation

/-- Looks up the variables that a run reads. -/
def lookUpVariables : IO (List (String × Bytes)) := do
  let mut found := []
  for name in variableNames do
    if let some value ← IO.getEnv name then
      found := found ++ [(name, bytesOf value)]
  return found

/-- Whether the system knows where a path leads, which takes no permission to read what is there. -/
def leadsSomewhere (path : Path) : IO Bool := do
  try
    discard (IO.FS.realPath path.display)
    return true
  catch _ => return false

/-- Looks up what a path leads to.  A file that may not be read is there all the same. -/
def lookUpEntry (path : Path) : IO Entry := do
  try
    let content ← IO.FS.readBinFile path.display
    return .file content.toList
  catch error =>
    match error with
    | .inappropriateType .. => return .directory
    | .permissionDenied .. =>
      return if ← leadsSomewhere path then .unreadable .notPermitted else .missing
    | _ => return .missing

/-- Runs the program.  Log lines carry the milliseconds of the system's steady clock. -/
def main (arguments : List String) : IO UInt32 := do
  let environment := environmentOf (← lookUpVariables)
  let here := Path.ofString (toString (← IO.currentDir))
  let arguments := arguments.map bytesOf
  let paths :=
    match CommandLine.parse arguments with
    | .ok request => Config.candidates environment request.file here
    | .error _ => []
  let entries ← paths.mapM fun path => do return (path, ← lookUpEntry path)
  let outcome := run
    { files := filesOf entries, environment := environment, workingDirectory := here } arguments
  let time := toString (← IO.monoMsNow)
  for diagnostic in outcome.diagnostics do
    IO.eprint (diagnostic.print time)
  let output ← IO.getStdout
  output.write (ByteArray.mk outcome.output.toArray)
  output.flush
  return UInt32.ofNat outcome.exitCode
