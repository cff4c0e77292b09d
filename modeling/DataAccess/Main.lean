import DataAccess.CommandLine.Run
import DataAccess.Link.Offline

/-! The program: arguments, environment and files in, text and an exit code out. -/
namespace DataAccess.CommandLine

/-- The variable that names the settings where no argument does. -/
def configVariable : String := "DATA_ACCESS_CONFIG"

/-- The text of a file, if it can be read. -/
def contents? (path : String) : IO (Option String) := do
  try return some (← IO.FS.readFile path) catch _ => return none

/-- The variables with the given names that are set. -/
def setVariables (names : List String) : IO (List (String × String)) := do
  let values ← names.mapM fun name => do return (name, ← IO.getEnv name)
  return values.filterMap fun v => v.2.map fun value => (v.1, value)

def host (args : List String) : IO Host := do
  let defaultConfig := (← IO.getEnv configVariable).filter (· ≠ "")
  let path := match Invocation.parse defaultConfig args with
    | .ok invocation => invocation.config
    | .error _ => none
  let text ← match path with
    | some path => contents? path
    | none => pure none
  let set ← setVariables ("DATABASE_URL" :: Environment.names (text.getD ""))
  return { environment := Assoc.get? set, contents := fun _ => text, defaultConfig }

end DataAccess.CommandLine

open DataAccess DataAccess.CommandLine in
def main (args : List String) : IO UInt32 := do
  let outcome := run ({} : Offline) (← host args) args
  IO.print outcome.output
  (← IO.getStderr).putStr outcome.errorOutput
  return outcome.code.toUInt32
