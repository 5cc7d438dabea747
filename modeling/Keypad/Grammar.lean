import Keypad.Evaluation

/-!
# Keypad.Grammar — expressions as sums of terms

The value of an expression by recursive descent: a sum of terms, each a product of operands.

* `product`, `sum`: what an operand, or a term, comes to with the operators after it.
* `Runs.value`: the value of an expression cut at its operators.
* `attempt`, `Runs.danglingError`: what is reported of an expression whose last operand is missing.
* `expression`: an expression whose first operand is a number, complete or not.
-/

namespace Keypad

/-- Whether an operator stands within a term. -/
def Operator.isFactor : Operator → Bool
  | multiply | divide => true
  | add | subtract => false

namespace Grammar

/-- Multiplies and divides a value by the operands that follow, up to the end of the term. -/
def product (value : Binary64) :
    List (Operator × List Char) → Except EvalError (Binary64 × List (Operator × List Char))
  | [] => .ok (value, [])
  | (op, text) :: rest =>
    if op.isFactor then do
      let operand ← readOperand text
      let next ← op.apply value operand
      product next rest
    else .ok (value, (op, text) :: rest)

theorem product_length : ∀ {value : Binary64} {rest later : List (Operator × List Char)} {term : Binary64},
    product value rest = .ok (term, later) → later.length ≤ rest.length
  | _, [], _, _, h => by cases h; exact Nat.le_refl _
  | value, (op, text) :: rest, later, term, h => by
    rw [product] at h
    split at h
    · cases ho : readOperand text with
      | error e => rw [ho] at h; cases h
      | ok operand =>
        rw [ho] at h
        cases ha : op.apply value operand with
        | error e => simp only [bind, Except.bind, ha] at h; cases h
        | ok next =>
          simp only [bind, Except.bind, ha] at h
          exact Nat.le_succ_of_le (product_length h)
    · cases h; exact Nat.le_refl _

/-- Adds the terms that follow to a value, or subtracts them. -/
def sum (value : Binary64) : List (Operator × List Char) → Except EvalError Binary64
  | [] => .ok value
  | (op, text) :: rest => do
    let operand ← readOperand text
    match _h : product operand rest with
    | .error e => .error e
    | .ok (term, later) => do
      let next ← op.apply value term
      sum next later
termination_by rest => rest.length
decreasing_by exact Nat.lt_succ_of_le (product_length ‹_›)

theorem sum_cons (value : Binary64) (op : Operator) (text : List Char) (rest : List (Operator × List Char)) :
    sum value ((op, text) :: rest) = readOperand text >>= fun operand => product operand rest >>= fun h =>
      op.apply value h.1 >>= fun next => sum next h.2 := by
  rw [sum]
  refine bind_congr fun operand => ?_
  split
  · rename_i h
    rw [h]; rfl
  · rename_i h
    rw [h]; rfl

/-- Adds a term to the sum before it, or subtracts it; the first term has no sum before it. -/
def settle (before : Option (Binary64 × Operator)) (term : Binary64) : Except EvalError Binary64 :=
  match before with
  | none => .ok term
  | some (value, op) => op.apply value term

/-- The last term of a sum, with the sum before it and the operator between them. -/
def lastTerm (before : Option (Binary64 × Operator)) (term : Binary64) :
    List (Operator × List Char) → Except EvalError (Option (Binary64 × Operator) × Binary64)
  | [] => .ok (before, term)
  | (op, text) :: rest => do
    let value ← settle before term
    let operand ← readOperand text
    match _h : product operand rest with
    | .error e => .error e
    | .ok (next, later) => lastTerm (some (value, op)) next later
termination_by rest => rest.length
decreasing_by exact Nat.lt_succ_of_le (product_length ‹_›)

theorem lastTerm_cons (before : Option (Binary64 × Operator)) (term : Binary64) (op : Operator) (text : List Char)
    (rest : List (Operator × List Char)) :
    lastTerm before term ((op, text) :: rest) = settle before term >>= fun value =>
      readOperand text >>= fun operand => product operand rest >>= fun h => lastTerm (some (value, op)) h.1 h.2 := by
  rw [lastTerm]
  refine bind_congr fun value => bind_congr fun operand => ?_
  split
  · rename_i h
    rw [h]; rfl
  · rename_i h
    rw [h]; rfl

/-- What an operator without a right operand is tried on.  Before a sum or difference the last term is added up; a
product or quotient takes the sum and the last term for its operands, if there are both. -/
def attempt (op : Operator) (before : Option (Binary64 × Operator)) (term : Binary64) : Except EvalError Binary64 :=
  settle (if op.isFactor then before.map fun h => (h.1, op) else before) term

/-- What is computed of an expression whose last operator lacks its right operand. -/
def early (value : Binary64) (rest : List (Operator × List Char)) (op : Operator) : Except EvalError Binary64 := do
  let (first, later) ← product value rest
  let (before, term) ← lastTerm none first later
  attempt op before term

/-- The error of a computation that leaves an operator without an operand. -/
def missing : Except EvalError Binary64 → EvalError
  | .ok _ => .malformedExpression
  | .error e => e

/-- The value, before rounding, of an expression whose first operand is a number. -/
def expression (value : Binary64) (rest : List (Operator × List Char)) : Except EvalError Binary64 :=
  match rest.getLast? with
  | some (op, []) => .error (missing (early value rest.dropLast op))
  | _ => do
    let (term, later) ← product value rest
    sum term later

end Grammar

/-- The value of an expression before rounding. -/
def Runs.value (r : Runs) : Except EvalError Binary64 := do
  let operand ← readOperand r.first
  let (term, later) ← Grammar.product operand r.rest
  Grammar.sum term later

/-- The error of an expression whose last operand is missing: the first one met on the way to the last operator, else
that the expression is malformed. -/
def Runs.danglingError (r : Runs) : EvalError :=
  Grammar.missing do
    let operand ← readOperand r.first
    match r.rest.getLast? with
    | none => .ok operand
    | some (op, _) => Grammar.early operand r.rest.dropLast op

end Keypad
