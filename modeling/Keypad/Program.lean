import Keypad.App
import Keypad.CommandLine
import Keypad.Rate.Response

/-!
# Keypad.Program — a whole run of the program

Reading files is left to the caller, so that a run is a function of the arguments, the files and the input.

* `start`: the calculator that the arguments and the files set up.
* `inputLines`: the lines of the input, each decoded by itself.
* `Transcript`, `runKeys`, `runLines`: the lines that a run prints, and how it ends.
* `run`: the program.
-/

namespace Keypad

/-- What a path leads to. -/
inductive FileText
  | missing
  /-- There is something, but no text. -/
  | unreadable
  | text (content : String)
  deriving DecidableEq, Repr

/-- The user's folders for configuration and for files that can be fetched again. -/
structure Folders where
  config : String
  cache : String

/-- How a run ends. -/
inductive Status
  | success
  | failure
  /-- The arguments were refused. -/
  | usage
  deriving DecidableEq, Repr

/-- The exit code of the program. -/
def Status.exitCode : Status → UInt32
  | success => 0
  | failure => 1
  | usage => 2

/-- What a run prints, and how it ends. -/
structure Transcript where
  lines : List String := []
  status : Status
  deriving DecidableEq, Repr

/-- How a run ends that was asked to copy the display: there is no clipboard to copy to. -/
def Arguments.conclude (arguments : Arguments) (status : Status) : Status :=
  if status = .success ∧ arguments.copy then .failure else status

namespace Program

/-! ## Setting up -/

/-- The configuration in a file; a missing file gives the defaults. -/
def configOf : FileText → Option Config
  | .missing => some {}
  | .unreadable => none
  | .text content => Config.parse? content.toList

/-- The rate table in a file, if it holds one. -/
def ratesOf : FileText → Option RateTable
  | .text content => (RateTable.ofJson content.toList).toOption
  | _ => none

/-- The calculator for the given arguments, unless the configuration is refused. -/
def start [Monad m] (read : String → m FileText) (folders : Folders) (arguments : Arguments) : m (Option App) := do
  let file ← read (arguments.config.getD (Config.defaultPath folders.config))
  match configOf file with
  | none => return none
  | some loaded =>
    let config := arguments.override loaded
    let rates ← read (config.ratesPath folders.cache)
    return some { pair := config.pair, rates := ratesOf rates }

/-! ## Input -/

/-- The lines of the input without their line ends; the last one may lack it. -/
def splitLines : List UInt8 → List (List UInt8)
  | [] => []
  | byte :: rest =>
    if byte = 10 then [] :: splitLines rest
    else match splitLines rest with
      | [] => [[byte]]
      | line :: later => (byte :: line) :: later

/-- The text of a line, if its bytes are valid. -/
def decodeLine (bytes : List UInt8) : Option String := String.fromUTF8? ⟨bytes.toArray⟩

/-- The lines of the input, each decoded by itself. -/
def inputLines (bytes : List UInt8) : List (Option String) := (splitLines bytes).map decodeLine

/-! ## Running -/

/-- Runs one script. -/
def runKeys (app : App) (keys : String) : Transcript :=
  match app.run keys.toList with
  | .ok (_, lines) => { lines := lines, status := .success }
  | .error _ => { status := .failure }

/-- Handles lines until one quits; a line that is no text ends the run as a failure. -/
def runLines (app : App) (input : List (Option String)) : Transcript :=
  let readable := (input.takeWhile Option.isSome).filterMap (·.map String.toList)
  let reply := app.handleAll readable
  { lines := reply.lines, status := if reply.continues ∧ input.contains none then .failure else .success }

/-- The program. -/
def run [Monad m] (read : String → m FileText) (folders : Folders) (arguments : List String)
    (input : List UInt8) : m Transcript := do
  match Arguments.parse? arguments with
  | none => return { status := .usage }
  | some arguments =>
    match ← start read folders arguments with
    | none => return { status := .failure }
    | some app =>
      let transcript := match arguments.keys with
        | some keys => runKeys app keys
        | none => runLines app (inputLines input)
      return { transcript with status := arguments.conclude transcript.status }

end Program

end Keypad
