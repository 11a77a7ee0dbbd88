import ProcessEngine.CommandLine.Command
import ProcessEngine.Instance.Json
import ProcessEngine.Json.Writer
import Std.Time.DateTime.Timestamp

/-!
# The program

Reads the files that the command line names, runs the command, and prints what it came to.
-/

namespace ProcessEngine.CommandLine

/-- The environment variable that names a settings file. -/
def configVariableName : String := "BPMN_EXEC_CONFIG"

/-- How the program is called. -/
def usageText : String :=
  "Usage: process-engine [OPTIONS] <DEFINITION>\n\n" ++
  "Options:\n" ++
  "  -k, --business-key <KEY>   business key of the new instance [default: cli]\n" ++
  "  -v, --var <NAME=VALUE>     variable of the new instance, as JSON where possible\n" ++
  "  -c, --complete <TASK>      task to complete, in order\n" ++
  "      --config <FILE>        settings; by default the file named by BPMN_EXEC_CONFIG\n" ++
  "      --validate             only check the definition"

/-- The content of a file, if it can be read. -/
def readFile? (path : String) : IO (Option String) := do
  try
    return some (← IO.FS.readFile path)
  catch _ => return none

/-- The supply of a program that does all its work at the time at which it begins. -/
def supplyNow : IO Supply := do
  let now ← Std.Time.Timestamp.now
  return Supply.start fun _ => .ofNanoseconds now.toNanosecondsSinceUnixEpoch.val

/-- Prints an outcome; yields the exit code. -/
def report : Outcome → IO UInt32
  | .usage => do
    IO.eprintln usageText
    return 2
  | .failed message cause => do
    IO.eprintln ("Error: " ++ message)
    match cause with
    | some cause => IO.eprintln ("\nCaused by:\n    " ++ cause)
    | none => pure ()
    return 1
  | .checked text => do
    IO.println text
    return 0
  | .finished i => do
    IO.println (Json.writePretty 0 i.toValue)
    return 0

/-- Runs the program; yields the exit code. -/
def program (arguments : List String) : IO UInt32 := do
  let configVariable ← IO.getEnv configVariableName
  let paths := ((Arguments.read? arguments).map (·.files configVariable)).getD []
  let contents ← paths.mapM fun path => return (path, ← readFile? path)
  let file (path : String) : Option String := (contents.lookup path).join
  report (run arguments ⟨file, configVariable⟩ (← supplyNow))

end ProcessEngine.CommandLine

/-- Runs the program. -/
def main (arguments : List String) : IO UInt32 := ProcessEngine.CommandLine.program arguments
