import Std.Time.DateTime.Timestamp
import DesignMarkup.Command.Run

/-!
The program: its arguments, the environment around it and the clock are handed to a command line
over the files of the machine.
-/

namespace DesignMarkup

instance : FileAccess IO where
  read path := do
    try
      return .text (← IO.FS.readFile path)
    catch
      | .noFileOrDirectory .. => return .missing
      | _ => return .unreadable
  write path contents := do
    try
      IO.FS.writeFile path contents
      return true
    catch _ => return false

/-- The instant that the clock shows. -/
def currentInstant : IO Instant := do
  let elapsed := (← Std.Time.Timestamp.now).val
  return ⟨elapsed.second.val, elapsed.nano.val.toNat⟩

/-- The name and value of a variable that is given as one text. -/
def splitVariable (entry : List Char) : String × String :=
  let (name, value) := entry.span (· ≠ '=')
  (String.ofList name, String.ofList (value.drop 1))

/-- The variables around the program, none where the machine does not list them. -/
def environment : IO (List (String × String)) := do
  try
    let listing ← IO.FS.readFile "/proc/self/environ"
    return (listing.toList.splitOn '\x00').map splitVariable
  catch _ => return []

end DesignMarkup

def main (args : List String) : IO UInt32 := do
  let now ← DesignMarkup.currentInstant
  let result ← DesignMarkup.Command.runLine now (← DesignMarkup.environment) args
  IO.print result.stdout
  IO.eprint result.stderr
  return result.exitCode
