import Keypad.Rate.Pair
import Keypad.Script
import Keypad.Session.Basic

/-!
# Keypad.App — a calculator with currencies, driven by lines of text

* `App`: the session, the pair of currencies, and the rate table if there is one.
* `App.run`: presses the keys of a script and prints the display, then the converted value of its last evaluation.
* `Command`, `Command.ofLine`: what a line of input asks for.
* `App.handle`: carries out a line; an output is a list of lines.  `App.handleAll`: many lines, until one quits.
-/

namespace Keypad

/-- All that a running calculator needs. -/
structure App where
  session : Session := {}
  pair : Pair
  rates : Option RateTable := none

namespace App

/-! ## Output -/

/-- The converted amount with its currency, if there is a usable rate for both sides. -/
def conversionLines (app : App) (value : Binary64) : List String :=
  match app.rates with
  | none => []
  | some table =>
    match app.pair.convertedText value table with
    | .ok text => [s!"{text} {app.pair.target}"]
    | .error _ => []

/-- The exchange rate of the pair. -/
def exchangeLine (app : App) (table : RateTable) : String :=
  match app.pair.exchangeInfo table with
  | .ok info => info
  | .error e => e.message

/-- The exchange rate of the pair, and when the rates were updated. -/
def rateLines (app : App) : List String :=
  match app.rates with
  | none => ["exchange rates not loaded"]
  | some table =>
    app.exchangeLine table :: table.updatedAt.toList.map fun t => s!"rates updated at {t} (unix time)"

/-! ## Actions -/

/-- The last evaluation among the results of key presses. -/
def lastOutcome (outcomes : List (Option Outcome)) : Option Outcome := (outcomes.filterMap id).getLast?

/-- Presses the keys of a script, unless one of its characters has no key. -/
def run (app : App) (script : List Char) : Except UnknownKey (App × List String) := do
  let keys ← Script.parse script
  let (session, outcomes) := app.session.pressAll keys
  let after := { app with session := session }
  let value? := (lastOutcome outcomes).bind Outcome.value?
  return (after, String.ofList session.display :: value?.toList.flatMap after.conversionLines)

/-- Exchanges the currencies and converts the current value anew. -/
def swap (app : App) : App × List String :=
  let after := { app with pair := app.pair.swap }
  (after, after.pair.text :: after.session.currentValue.toList.flatMap after.conversionLines)

end App

/-! ## Commands -/

/-- What a line of input asks for. -/
inductive Command
  | nothing
  | quit
  | swap
  | rate
  | keys (script : List Char)
  | unrecognized (text : List Char)
  deriving DecidableEq, Repr

/-- The command on a line, blanks around it aside. -/
def Command.ofLine (line : List Char) : Command :=
  let text := Text.trim line
  if text = [] then nothing
  else if text = "quit".toList ∨ text = "exit".toList then quit
  else if text = "swap".toList then swap
  else if text = "rate".toList then rate
  else if Script.looksLike text then keys text
  else unrecognized text

/-- What a line of input leads to. -/
structure Reply where
  app : App
  lines : List String := []
  /-- Whether more input is read. -/
  continues : Bool := true

namespace App

/-- Carries out a command. -/
def execute (app : App) : Command → Reply
  | .nothing => { app := app }
  | .quit => { app := app, continues := false }
  | .swap =>
    let (after, lines) := app.swap
    { app := after, lines := lines }
  | .rate => { app := app, lines := app.rateLines }
  | .keys script =>
    match app.run script with
    | .ok (after, lines) => { app := after, lines := lines }
    | .error e => { app := app, lines := [e.message] }
  | .unrecognized text => { app := app, lines := [s!"unrecognized input: {String.ofList text}"] }

/-- Handles one line of input. -/
def handle (app : App) (line : List Char) : Reply := app.execute (Command.ofLine line)

/-- Handles lines in order until one quits. -/
def handleAll (app : App) : List (List Char) → Reply
  | [] => { app := app }
  | line :: rest =>
    let reply := app.handle line
    if reply.continues then
      let later := reply.app.handleAll rest
      { later with lines := reply.lines ++ later.lines }
    else reply

end App

end Keypad
