import Keypad.Decimal.Literal
import Keypad.Display
import Keypad.Rounding
import Keypad.Token

/-!
# Keypad.Evaluation — the value of an expression

One pass over the tokens with two stacks: operands wait on one, and operators on the other until an operator that binds
no tighter, or the end, makes them apply.

* `readOperand`: the number that an operand's text stands for.
* `Machine`, `Machine.step`, `Machine.finish`: the two stacks, one token, and the end of the expression.
* `Fault`: a stack that lacks an operand is told apart from an operation that failed.
* `evaluate`: the machine's result, rounded; `Outcome`: the expression that was evaluated and what came of it.
-/

namespace Keypad

/-- The finite number that an operand's text stands for. -/
def readOperand (text : List Char) : Except EvalError Binary64 :=
  match Binary64.read? text with
  | some value => if value.isFinite then .ok value else .error .malformedExpression
  | none => .error .malformedExpression

/-- Why the machine stops before it has a value. -/
inductive Fault
  /-- An operator, or the expression as a whole, finds too few operands. -/
  | operandMissing
  /-- An operand could not be read, or an operation has no result. -/
  | failed (error : EvalError)
  deriving DecidableEq, Repr

/-- The error that is reported: an expression that lacks an operand is malformed. -/
def Fault.error : Fault → EvalError
  | operandMissing => .malformedExpression
  | failed error => error

/-- The state of an evaluation: both stacks with their tops first, and the text of the operand being read. -/
structure Machine where
  operands : List Binary64 := []
  operators : List Operator := []
  pending : List Char := []
  deriving DecidableEq

namespace Machine

/-- Reads an operand as a step of the machine. -/
def operand (text : List Char) : Except Fault Binary64 := (readOperand text).mapError .failed

/-- Applies an operator to the two topmost operands. -/
def reduce (operands : List Binary64) (op : Operator) : Except Fault (List Binary64) :=
  match operands with
  | rhs :: lhs :: rest => ((op.apply lhs rhs).mapError .failed).map (· :: rest)
  | _ => .error .operandMissing

/-- Applies the waiting operators that bind at least as tight as the incoming one. -/
def release (incoming : Operator) :
    List Operator → List Binary64 → Except Fault (List Operator × List Binary64)
  | top :: held, operands =>
    if incoming.precedence ≤ top.precedence then do
      let reduced ← reduce operands top
      release incoming held reduced
    else .ok (top :: held, operands)
  | [], operands => .ok ([], operands)

/-- Processes one token. -/
def step (m : Machine) : Token → Except Fault Machine
  | .operator op => do
    let value ← operand m.pending
    let (held, operands) ← release op m.operators (value :: m.operands)
    .ok { operands := operands, operators := op :: held, pending := [] }
  | t => .ok { m with pending := m.pending ++ t.text }

/-- Processes a token list. -/
def scan (m : Machine) (tokens : List Token) : Except Fault Machine := tokens.foldlM step m

@[simp] theorem scan_nil (m : Machine) : m.scan [] = .ok m := rfl

@[simp] theorem scan_cons (m : Machine) (t : Token) (ts : List Token) :
    m.scan (t :: ts) = m.step t >>= fun m => m.scan ts := rfl

theorem scan_append (m : Machine) (ts us : List Token) :
    m.scan (ts ++ us) = m.scan ts >>= fun m => m.scan us := by
  simp only [scan, List.foldlM_append]

/-- Takes up the last operand, unless its text is empty. -/
def flush (m : Machine) : Except Fault (List Binary64) :=
  if m.pending.isEmpty then .ok m.operands else (operand m.pending).map (· :: m.operands)

/-- Ends the expression: all waiting operators apply and one operand has to be left. -/
def finish (m : Machine) : Except Fault Binary64 := do
  let operands ← m.flush
  match ← m.operators.foldlM reduce operands with
  | [value] => .ok value
  | _ => .error .operandMissing

/-- The value of an expression before rounding. -/
def run (tokens : List Token) : Except Fault Binary64 := do
  let m ← scan {} tokens
  m.finish

end Machine

/-- The value of an expression, rounded to six decimal places. -/
def evaluate (tokens : List Token) : Except EvalError Binary64 :=
  ((Machine.run tokens).mapError Fault.error).map (roundTo · resultPlaces)

/-! ## Outcomes -/

/-- An evaluated expression, as it was displayed, with its value or the error. -/
structure Outcome where
  expression : List Char
  result : Except EvalError Binary64

namespace Outcome

/-- Evaluates tokens under the given display text. -/
def ofTokens (expression : List Char) (tokens : List Token) : Outcome := ⟨expression, evaluate tokens⟩

/-- The value of a successful evaluation. -/
def value? (o : Outcome) : Option Binary64 := o.result.toOption

theorem value?_eq_some_iff {o : Outcome} {value : Binary64} : o.value? = some value ↔ o.result = .ok value := by
  unfold value?
  cases o.result with
  | ok x => rw [Except.toOption, Option.some_inj, Except.ok.injEq]
  | error e =>
    constructor
    · intro h
      cases h
    · intro h
      cases h

/-- The value of a successful evaluation as the display shows it. -/
def display? (o : Outcome) : Option (List Char) := o.value?.map displayText

end Outcome

end Keypad
