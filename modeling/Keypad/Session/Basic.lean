import Keypad.Buffer
import Keypad.Evaluation
import Keypad.Key

/-!
# Keypad.Session.Basic — the state behind the display

* `Session`: the buffer, the carried result, the phase of entry, and what the display shows.
* `Session.press`: one key, with the outcome of an evaluation that it triggers; `Session.pressAll`: many.
* `Session.display`, `Session.currentValue`: the text shown and the number it stands for.
-/

namespace Keypad

/-- Whether a new expression starts or one is being entered. -/
inductive Phase
  /-- Nothing is pending; the next digit starts a new number. -/
  | fresh
  /-- A key was entered, or a carried result is in play. -/
  | building
  deriving DecidableEq, Repr

/-- What the display shows. -/
inductive Shown
  /-- The expression in the buffer. -/
  | expression
  /-- A result, cut to the width of the display. -/
  | result (text : List Char)
  /-- The error marker. -/
  | error
  deriving DecidableEq, Repr

/-- The state of one calculator. -/
structure Session where
  buffer : Buffer := {}
  lastResult : Option Binary64 := none
  phase : Phase := .fresh
  shown : Shown := .expression
  deriving DecidableEq

namespace Session

/-! ## Views -/

/-- The text shown after a failed evaluation. -/
def errorMarker : List Char := "Error".toList

/-- The text on the display; an empty expression shows as zero. -/
def display (s : Session) : List Char :=
  match s.shown with
  | .result text => text
  | .error => errorMarker
  | .expression => if s.buffer.isEmpty then ['0'] else s.buffer.text

/-- The number that the display stands for, unless it shows an error or an expression with operators. -/
def currentValue (s : Session) : Option Binary64 :=
  if s.shown = .error then none
  else if s.buffer.isEmpty then some Binary64.zero
  else if s.buffer.isSingleNumber then Binary64.read? s.buffer.currentNumber
  else none

/-! ## Preparing the buffer -/

/-- Seeds an empty buffer with the carried result, in the given rendering. -/
def seedCarried (render : Binary64 → List Char) (s : Session) : Session :=
  match s.buffer.isEmpty, s.lastResult with
  | true, some value => { s with buffer := .seed (render value) }
  | _, _ => s

/-- Turns a shown result into an expression that holds the displayed text. -/
def editShown (s : Session) : Session :=
  match s.shown with
  | .result text => { s with buffer := .seed text, shown := .expression }
  | _ => s

/-- Gets the buffer ready for a digit or point: in the fresh phase a shown result or error gives way to a new number,
otherwise the displayed number is continued. -/
def prepareNumber (s : Session) : Session :=
  if s.phase = .fresh ∧ s.shown ≠ .expression then { s with buffer := {} }
  else
    let edited := s.editShown
    if edited.phase = .building then edited.seedCarried displayText else edited

/-- The session with the given expression on the display, being entered. -/
def entering (s : Session) (buffer : Buffer) : Session :=
  { s with buffer := buffer, phase := .building, shown := .expression }

/-! ## Keys -/

/-- A digit key; other characters do nothing. -/
def digit (s : Session) (char : Char) : Session :=
  if char.isDigit then
    let ready := s.prepareNumber
    ready.entering ((ready.buffer.pushDigit? char).getD ready.buffer)
  else s

/-- The point key. -/
def dot (s : Session) : Session :=
  let ready := s.prepareNumber
  ready.entering (ready.buffer.pushDot?.getD ready.buffer)

/-- An operator key.  It continues from the carried result in full. -/
def operator (s : Session) (op : Operator) : Session :=
  if s.phase = .fresh ∧ s.lastResult = none then s
  else
    let seeded := s.seedCarried carriedText
    match seeded.buffer.pushOperator? op with
    | some buffer => seeded.entering buffer
    | none => seeded

/-- The percent key: the single number in the buffer becomes a hundredth of it.  The buffer keeps the full value; only
the display is cut. -/
def percent (s : Session) : Session :=
  if s.shown = .error then s
  else
    let seeded := s.seedCarried carriedText
    match seeded.buffer.isEmpty, seeded.currentValue with
    | false, some value =>
      let hundredth := value / .ofNat 100
      { seeded with
        buffer := .seed (carriedText hundredth), phase := .building, shown := .result (displayText hundredth) }
    | _, _ => seeded

/-- The backspace key: removes the last displayed character. -/
def backspace (s : Session) : Session :=
  if s.shown = .error then s
  else
    let seeded := s.editShown.seedCarried displayText
    let buffer := seeded.buffer.pop.2
    { seeded with
      buffer := buffer
      phase := if buffer.isEmpty ∧ seeded.lastResult = none then .fresh else seeded.phase }

/-- The clear key: back to the start. -/
def clear (_ : Session) : Session := {}

/-- The session after an evaluation: a value is carried and shown, an error forgets everything. -/
def conclude (s : Session) (result : Except EvalError Binary64) : Session :=
  match result with
  | .ok value =>
    { s with
      buffer := .seed (carriedText value), lastResult := some value, phase := .fresh
      shown := .result (displayText value) }
  | .error _ => { s with buffer := {}, lastResult := none, phase := .fresh, shown := .error }

/-- The evaluate key, with the outcome.  In the fresh phase and on an empty buffer there is nothing to evaluate. -/
def evaluate (s : Session) : Session × Option Outcome :=
  if s.phase = .fresh ∨ s.buffer.isEmpty then (s, none)
  else
    let outcome := Outcome.ofTokens s.buffer.text s.buffer.tokens
    (s.conclude outcome.result, some outcome)

/-- One key press, with the outcome of an evaluation that it triggers. -/
def press (s : Session) : Key → Session × Option Outcome
  | .digit c => (s.digit c, none)
  | .dot => (s.dot, none)
  | .operator op => (s.operator op, none)
  | .percent => (s.percent, none)
  | .backspace => (s.backspace, none)
  | .evaluate => s.evaluate
  | .clear => (s.clear, none)

/-- Presses keys in order; one result per key. -/
def pressAll (s : Session) : List Key → Session × List (Option Outcome)
  | [] => (s, [])
  | key :: keys =>
    let (after, outcome) := s.press key
    let (final, outcomes) := after.pressAll keys
    (final, outcome :: outcomes)

@[simp] theorem pressAll_nil (s : Session) : s.pressAll [] = (s, []) := rfl

theorem pressAll_cons (s : Session) (key : Key) (keys : List Key) :
    s.pressAll (key :: keys) =
      (((s.press key).1.pressAll keys).1, (s.press key).2 :: ((s.press key).1.pressAll keys).2) := rfl

theorem pressAll_append : ∀ (s : Session) (ks ls : List Key),
    s.pressAll (ks ++ ls) =
      (((s.pressAll ks).1.pressAll ls).1, (s.pressAll ks).2 ++ ((s.pressAll ks).1.pressAll ls).2)
  | _, [], _ => rfl
  | s, k :: ks, ls => by
    simp only [List.cons_append, pressAll, pressAll_append (s.press k).1 ks ls]

end Session

end Keypad
