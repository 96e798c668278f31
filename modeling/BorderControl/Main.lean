import BorderControl.CommandLine
import BorderControl.Timestamp.Clock
import Std.Time.DateTime.Timestamp

/-!
# The program

Reads the files that the command line names, runs it, saves what is to be saved, and
prints.
-/

namespace BorderControl

/-- What the clock shows. -/
def readClock : IO Timestamp := do
  let now ← Std.Time.Timestamp.now
  let seconds := now.toSecondsSinceUnixEpoch.val.toNat
  let nanosecond := (now.toNanosecondsSinceUnixEpoch.val % 1000000000).toNat
  return (Timestamp.ofClock? seconds nanosecond).getD .epoch

/-- The text of a file; nothing if it cannot be read or is not text. -/
def readText (path : String) : IO (Option String) := do
  try
    return some (← IO.FS.readFile path)
  catch _ =>
    return none

/-- Saves the file of a run. A file that cannot be saved makes another run of it. -/
def saveFile (args : List String) (run : CommandLine.Run) : IO CommandLine.Run := do
  match run.saved with
  | none => return run
  | some (path, text) =>
    try
      IO.FS.writeFile path text
      return run
    catch e =>
      return CommandLine.saveFailure args path (toString e)

/-- Answers a command line with the files and the clock of this machine. -/
def program (args : List String) : IO UInt32 := do
  let texts ← (CommandLine.paths args).mapM fun path => do return (path, ← readText path)
  let files : CommandLine.Files := fun path => (texts.lookup path).join
  let run ← saveFile args (CommandLine.run files (← readClock) args)
  IO.print run.output
  IO.eprint run.errors
  return run.exitCode

end BorderControl

def main (args : List String) : IO UInt32 := BorderControl.program args
