import Keypad.Program

/-!
# Keypad.Main — the command line

Reads files, the environment and the input, and prints.  Lines of input are answered one by one, as they come.
-/

namespace Keypad.Main

/-- What a path leads to.  What may not be opened is there all the same; a path that fails for any other reason, such
as its length or a file on the way, leads nowhere. -/
def readText (path : String) : IO FileText := do
  match ← (IO.FS.Handle.mk path .read).toBaseIO with
  | .error (.permissionDenied ..) => return .unreadable
  | .error _ => return .missing
  | .ok handle =>
    let .ok bytes ← handle.readBinToEnd.toBaseIO | return .unreadable
    return (String.fromUTF8? bytes).elim .unreadable .text

/-- A folder of the user: as the environment names it, or in the home folder. -/
def folder (name inHome : String) : IO String := do
  let home := (← IO.getEnv "HOME").getD ""
  let named := ((← IO.getEnv name).filter (·.startsWith "/"))
  return named.getD s!"{home}/{inHome}"

/-- Prints lines. -/
def printAll (lines : List String) : IO Unit := do
  let output ← IO.getStdout
  lines.forM output.putStrLn
  output.flush

/-- The next line of the input without its line end, none at the end. -/
partial def nextLine (input : IO.FS.Stream) (line : ByteArray) : IO (Option ByteArray) := do
  let byte ← input.read 1
  if byte.isEmpty then return if line.isEmpty then none else some line
  if byte.data == #[10] then return some line
  nextLine input (line ++ byte)

/-- Handles the lines of the input until one quits. -/
partial def converse (input : IO.FS.Stream) (app : App) : IO Status := do
  match ← nextLine input .empty with
  | none => return .success
  | some bytes =>
    match String.fromUTF8? bytes with
    | none => return .failure
    | some line =>
      let reply := app.handle line.toList
      printAll reply.lines
      if reply.continues then converse input reply.app else return .success

/-- Runs the program with arguments that were understood. -/
def runWith (arguments : Arguments) : IO Status := do
  let folders := ⟨← folder "XDG_CONFIG_HOME" ".config", ← folder "XDG_CACHE_HOME" ".cache"⟩
  match ← Program.start readText folders arguments with
  | none => return .failure
  | some app =>
    match arguments.keys with
    | some keys =>
      let transcript := Program.runKeys app keys
      printAll transcript.lines
      return transcript.status
    | none => converse (← IO.getStdin) app

end Keypad.Main

/-- The program. -/
def main (args : List String) : IO UInt32 := do
  match Keypad.Arguments.parse? args with
  | none => return Keypad.Status.usage.exitCode
  | some arguments => return (arguments.conclude (← Keypad.Main.runWith arguments)).exitCode
