import Closedness.CommandLine

/-!
# The program

Reads the files that the arguments name, runs, and writes what the run gives.
-/

namespace Closedness.CommandLine

/-- What the program says of texts that it cannot use. -/
def reasons : Reasons where
  unit _ := "the text does not describe a unit"
  config _ := "the text is not a configuration"

/-- What is at a path. -/
def inspect (path : String) : IO (Option FileContent) := do
  try
    return some (.text (← IO.FS.readFile path))
  catch
    | .noFileOrDirectory .. => return none
    | .inappropriateType .. => return some .directory
    | e => return some (.unreadable (toString e))

end Closedness.CommandLine

open Closedness.CommandLine in
/-- Checks the units named by the arguments. -/
def main (args : List String) : IO UInt32 := do
  let traced := (← IO.getEnv traceVariable).isSome
  let found ← (paths args).mapM fun path => return (path, ← inspect path)
  let result := run reasons (fun path => (found.lookup path).join) traced args
  IO.eprint result.stderr
  IO.print result.stdout
  return result.status.toUInt32
