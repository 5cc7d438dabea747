import Keypad.Binary64.Arith

/-!
# Keypad.Operator — the four binary operators of the keypad

* `Operator.symbol`, `Operator.ofChar?`: the keypad symbols and the characters that type them; a symbol types its own
  operator and is no part of a number.
* `Operator.precedence`: products and quotients bind tighter than sums and differences.
* `Operator.apply`: the checked operation; a zero divisor and an infinite result are errors.
-/

namespace Keypad

/-- A binary operator as shown on the keypad. -/
inductive Operator
  | add
  | subtract
  | multiply
  | divide
  deriving DecidableEq, Repr

/-- Why an expression has no value. -/
inductive EvalError
  /-- An operand is no number, or an operator lacks an operand. -/
  | malformedExpression
  /-- The right-hand side of a division is exactly zero. -/
  | divisionByZero
  /-- A result is beyond the largest number. -/
  | overflow
  deriving DecidableEq, Repr

namespace Operator

/-- Binding strength; higher binds tighter. -/
def precedence : Operator → Nat
  | add | subtract => 1
  | multiply | divide => 2

/-- The symbol on the display. -/
def symbol : Operator → Char
  | add => '+'
  | subtract => '−'
  | multiply => '×'
  | divide => '÷'

/-- The operator that a character types: a keypad symbol or its ASCII stand-in. -/
def ofChar? : Char → Option Operator
  | '+' => some add
  | '-' | '−' => some subtract
  | '*' | 'x' | '×' => some multiply
  | '/' | '÷' => some divide
  | _ => none

theorem ofChar?_symbol (op : Operator) : ofChar? op.symbol = some op := by
  cases op <;> rfl

theorem isDigit_symbol (op : Operator) : op.symbol.isDigit = false := by
  cases op <;> decide

theorem symbol_ne_point (op : Operator) : op.symbol ≠ '.' := by
  cases op <;> decide

/-- Applies the operator to finite operands. -/
def apply (op : Operator) (lhs rhs : Binary64) : Except EvalError Binary64 :=
  if op = divide ∧ rhs.isZero then .error .divisionByZero
  else
    let value := match op with
      | add => lhs + rhs
      | subtract => lhs - rhs
      | multiply => lhs * rhs
      | divide => lhs / rhs
    if value.isFinite then .ok value else .error .overflow

end Operator

end Keypad
