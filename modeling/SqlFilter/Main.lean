import SqlFilter.CommandLine.Files
import SqlFilter.CommandLine.Run

/-! The program with its real surroundings. -/
namespace SqlFilter.Main

open SqlFilter.CommandLine

/-- Why a reading failed. A directory can be opened, so that its path is missing from the error. -/
def fault : IO.Error → FileFault
  | .noFileOrDirectory .. => .noSuchFile
  | .inappropriateType none .. => .isADirectory
  | .inappropriateType (some _) .. => .notADirectory
  | .invalidArgument .. => .nameTooLong
  | .permissionDenied .. => .permissionDenied
  | _ => .notText

def attempt (action : IO String) : IO (Except FileFault String) := do
  try return .ok (← action)
  catch e => return .error (fault e)

def load (path : String) : IO (Except String String) :=
  return (← attempt (IO.FS.readFile path)).mapError FileFault.reason

def isPresent (path : String) : IO Bool := do
  match ← attempt (IO.FS.readFile path) with
  | .error .noSuchFile | .error .notADirectory | .error .nameTooLong => return false
  | _ => return true

def input : IO (Except String String) := do
  return (← attempt (← IO.getStdin).readToEnd).mapError FileFault.reason

def colors : IO Bool := do
  return wantsColors (← (← IO.getStdout).isTty) (← IO.getEnv "CLICOLOR_FORCE")
    (← IO.getEnv "NO_COLOR") (← IO.getEnv "CLICOLOR")

end SqlFilter.Main

open SqlFilter.Main SqlFilter.CommandLine in
def main (args : List String) : IO UInt32 := do
  let w : Surroundings IO := {
    load := load
    isPresent := isPresent
    input := input
    userConfig := userConfigPath (← IO.getEnv "XDG_CONFIG_HOME") (← IO.getEnv "HOME")
    defaultConfig := ← IO.getEnv "PREDSQL_CONFIG"
    colors := ← colors }
  let outcome ← run w args
  IO.print outcome.output
  IO.eprint (outcome.errorText w.colors)
  return outcome.exit.toUInt32
