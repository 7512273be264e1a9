import ScreenedQuery.CommandLine.Program
import ScreenedQuery.Sql.Snapshot

/-!
# The command line

The program with the files and the environment variables of the process around it. Databases are
files with snapshots.

## Main definitions

* `Surroundings.environment`: the surroundings of the process
* `main`: the program
-/

namespace ScreenedQuery.Surroundings

def file (path : String) : IO FileState := do
  match ← (IO.FS.readBinFile path).toBaseIO with
  | .ok content => return .bytes content
  | .error (.noFileOrDirectory ..) => return .missing
  | .error _ => return .unreadable

/-- The database at a path. A file that is not there is a database without tables. -/
def store (path : String) : IO StoreState := do
  if Folder.isTransient path then return .tables []
  match ← file path with
  | .missing => return .tables []
  | .unreadable => return .unavailable
  | .bytes content =>
    match (String.fromUTF8? content).bind Sql.Database.ofSnapshot? with
    | some database => return .tables database
    | none => return .broken

/-- The folder for settings: a variable that holds a path from the root, or else a folder in the
home of the user. -/
def configFolder : IO (Option String) := do
  match ← IO.getEnv "XDG_CONFIG_HOME" with
  | some folder => if folder.startsWith "/" then return some folder
  | none => pure ()
  return (← IO.getEnv "HOME").map (· ++ "/.config")

/-- **The surroundings of the process.** -/
def environment : Environment IO where
  configName := IO.getEnv "CRADLE_CONFIG"
  configFolder := configFolder
  file := file
  store := store

end ScreenedQuery.Surroundings

/-- **The program**: it prints its report, or else its failure beside it, and ends with its exit
code. -/
def main (arguments : List String) : IO UInt32 := do
  let outcome ← ScreenedQuery.Program.run ScreenedQuery.Surroundings.environment arguments
  IO.print outcome.stdout
  match outcome.failure with
  | some failure => IO.eprintln ("error: " ++ failure.message)
  | none => pure ()
  return UInt32.ofNat outcome.exitCode
