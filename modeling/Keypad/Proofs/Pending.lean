import Keypad.Grammar

/-!
# Keypad.Proofs.Pending — the two stacks as a pending sum and a pending term

Right after an operator the machine holds at most two operators: that of a sum to which the current term belongs, and
above it that of a product or quotient inside the term.  Each waits with its left operand.

* `Pending`: the sum and the term that wait; `Pending.machine`: the stacks that hold them.
* `Pending.push`: what an operator makes of them, once its left operand is read.
* `step_operator`: the machine does exactly that, so every scan without an error ends in such a state.
* `finish_machine`, `finish_machine_nil`: the end of the expression, with a last operand and without one.
-/

namespace Keypad

open Grammar Machine

/-! ## Pending operations -/

/-- A sum and a term that wait for their right operands. -/
structure Pending where
  sum : Option (Binary64 × Operator)
  term : Option (Binary64 × Operator)
  sum_isFactor : ∀ h ∈ sum, h.2.isFactor = false
  term_isFactor : ∀ h ∈ term, h.2.isFactor = true

namespace Pending

/-- Nothing waits. -/
def start : Pending := ⟨none, none, by simp, by simp⟩

/-- What waits, the term on top. -/
def held (p : Pending) : List (Binary64 × Operator) := p.term.toList ++ p.sum.toList

/-- The machine that holds the pending operations, with the text of the operand being read. -/
def machine (p : Pending) (text : List Char) : Machine := ⟨p.held.map Prod.fst, p.held.map Prod.snd, text⟩

/-- A product or quotient waits, besides the sum. -/
def inTerm (p : Pending) (term : Binary64) {op : Operator} (h : op.isFactor = true) : Pending where
  sum := p.sum
  term := some (term, op)
  sum_isFactor := p.sum_isFactor
  term_isFactor := fun _ hmem => Option.some.inj hmem ▸ h

/-- Only a sum or difference waits. -/
def inSum (sum : Binary64) {op : Operator} (h : op.isFactor = false) : Pending where
  sum := some (sum, op)
  term := none
  sum_isFactor := fun _ hmem => Option.some.inj hmem ▸ h
  term_isFactor := fun w hmem => absurd hmem (Option.not_mem_none w)

/-- Takes up an operator after a finished term: within the term the sum goes on waiting, otherwise the term is settled
with it. -/
def follow (p : Pending) (term : Binary64) (op : Operator) : Except EvalError Pending :=
  if h : op.isFactor then .ok (p.inTerm term h)
  else (settle p.sum term).map fun sum => inSum sum (Bool.eq_false_iff.mpr h)

/-- Takes up an operator and its left operand, which finishes the term up to here. -/
def push (p : Pending) (operand : Binary64) (op : Operator) : Except EvalError Pending :=
  settle p.term operand >>= fun term => p.follow term op

theorem follow_factor (p : Pending) (term : Binary64) {op : Operator} (h : op.isFactor = true) :
    p.follow term op = .ok (p.inTerm term h) := by
  rw [follow, dif_pos h]

theorem follow_sum (p : Pending) (term : Binary64) {op : Operator} (h : op.isFactor = false) :
    p.follow term op = (settle p.sum term).map fun sum => inSum sum h := by
  rw [follow, dif_neg (by simp [h])]

/-! ## The machine between two operators -/

theorem precedence_le_iff {op top : Operator} :
    op.precedence ≤ top.precedence ↔ op.isFactor = false ∨ top.isFactor = true := by
  cases op <;> cases top <;> decide

/-- One operator that binds tight enough is released and applied. -/
theorem release_cons {op top : Operator} (h : op.precedence ≤ top.precedence) (held : List Operator)
    (lhs rhs : Binary64) (rest : List Binary64) :
    release op (top :: held) (rhs :: lhs :: rest) =
      (top.apply lhs rhs).mapError .failed >>= fun value => release op held (value :: rest) := by
  rw [release, if_pos h, reduce]
  cases top.apply lhs rhs <;> rfl

/-- Every incoming operator finishes the product or quotient that waits in the term. -/
theorem release_held (p : Pending) (operand : Binary64) (op : Operator) :
    release op (p.held.map Prod.snd) (operand :: p.held.map Prod.fst) =
      (settle p.term operand).mapError .failed >>= fun term =>
        release op (p.sum.toList.map Prod.snd) (term :: p.sum.toList.map Prod.fst) := by
  obtain ⟨sum, term, -, hterm⟩ := p
  cases term with
  | none => rfl
  | some h =>
    have hle : op.precedence ≤ h.2.precedence := precedence_le_iff.mpr (Or.inr (hterm h rfl))
    exact release_cons hle _ h.1 operand _

/-- The sum that waits is finished by an operator that does not stand within a term. -/
theorem release_sum (p : Pending) (term : Binary64) (op : Operator) :
    release op (p.sum.toList.map Prod.snd) (term :: p.sum.toList.map Prod.fst) =
      if op.isFactor then .ok (p.sum.toList.map Prod.snd, term :: p.sum.toList.map Prod.fst)
      else ((settle p.sum term).mapError .failed).map fun sum => ([], [sum]) := by
  obtain ⟨sum, _, hsum, -⟩ := p
  cases sum with
  | none => cases op.isFactor <;> rfl
  | some h =>
    cases hop : op.isFactor with
    | true =>
      have hnot : ¬ op.precedence ≤ h.2.precedence := by
        rw [precedence_le_iff, hop, hsum h rfl]; decide
      show release op [h.2] [term, h.1] = _
      rw [release, if_neg hnot]; rfl
    | false =>
      have hle : op.precedence ≤ h.2.precedence := precedence_le_iff.mpr (Or.inl hop)
      show release op [h.2] [term, h.1] = _
      rw [release_cons hle]
      show _ = (((h.2.apply h.1 term).mapError Fault.failed).map fun sum => ([], [sum]))
      cases h.2.apply h.1 term <;> rfl

/-- **One operator**: the machine takes up an operator as the pending operations do. -/
theorem step_operator (p : Pending) (text : List Char) (op : Operator) :
    (p.machine text).step (.operator op) =
      ((readOperand text >>= fun operand => p.push operand op).mapError .failed).map (machine · []) := by
  rw [step, operand]
  show ((readOperand text).mapError Fault.failed >>= fun value =>
      release op (p.held.map Prod.snd) (value :: p.held.map Prod.fst) >>= _) = _
  cases readOperand text with
  | error e => rfl
  | ok operand =>
    show (release op (p.held.map Prod.snd) (operand :: p.held.map Prod.fst) >>= _) =
      ((p.push operand op).mapError _).map _
    rw [release_held, push]
    cases settle p.term operand with
    | error e => rfl
    | ok term =>
      show (release op (p.sum.toList.map Prod.snd) (term :: p.sum.toList.map Prod.fst) >>= _) =
        ((p.follow term op).mapError _).map _
      rw [release_sum]
      cases hop : op.isFactor with
      | true => rw [if_pos rfl, follow_factor p term hop]; rfl
      | false =>
        rw [if_neg (by decide), follow_sum p term hop]
        cases settle p.sum term <;> rfl

/-! ## The end of the expression -/

theorem reduce_held (h : Option (Binary64 × Operator)) (operand : Binary64) (rest : List Binary64) :
    (h.toList.map Prod.snd).foldlM reduce (operand :: (h.toList.map Prod.fst ++ rest)) =
      ((settle h operand).mapError .failed).map (· :: rest) := by
  cases h with
  | none => rfl
  | some h =>
    show (reduce (operand :: h.1 :: rest) h.2 >>= fun operands => .ok operands) = _
    rw [reduce]
    show _ = ((h.2.apply h.1 operand).mapError Fault.failed).map (· :: rest)
    cases h.2.apply h.1 operand <;> rfl

theorem drain_held (p : Pending) (operand : Binary64) :
    (p.held.map Prod.snd).foldlM reduce (operand :: p.held.map Prod.fst) =
      ((settle p.term operand >>= settle p.sum).mapError .failed).map ([·]) := by
  rw [held, List.map_append, List.map_append, List.foldlM_append, reduce_held]
  cases settle p.term operand with
  | error e => rfl
  | ok term =>
    have h := reduce_held p.sum term []
    rw [List.append_nil] at h
    exact h

/-- With a last operand, the term and then the sum are finished. -/
theorem finish_machine (p : Pending) {text : List Char} (h : text ≠ []) :
    (p.machine text).finish =
      (readOperand text >>= fun operand => settle p.term operand >>= settle p.sum).mapError .failed := by
  have hflush : (p.machine text).flush = (operand text).map (· :: p.held.map Prod.fst) := by
    rw [flush, if_neg (by simpa [machine] using h)]; rfl
  rw [finish, hflush, operand]
  cases readOperand text with
  | error e => rfl
  | ok operand =>
    show ((p.held.map Prod.snd).foldlM reduce (operand :: p.held.map Prod.fst) >>= _) = _
    rw [drain_held]
    show _ = (settle p.term operand >>= settle p.sum).mapError Fault.failed
    cases settle p.term operand >>= settle p.sum <;> rfl

/-- The error that is reported when the operand after the pending operators is missing. -/
def stuckError (p : Pending) : EvalError :=
  match p.term with
  | some (term, op) => missing (attempt op p.sum term)
  | none => .malformedExpression

/-- Without a last operand an operator takes what is on the stack, and at last finds too little. -/
theorem finish_machine_nil (p : Pending) :
    (p.machine []).finish.mapError Fault.error = .error p.stuckError := by
  obtain ⟨sum, term, -, hterm⟩ := p
  cases term with
  | none => cases sum <;> rfl
  | some t =>
    obtain ⟨term, op⟩ := t
    have hop : op.isFactor = true := hterm (term, op) rfl
    cases sum with
    | none => simp [stuckError, attempt, hop, settle, missing, machine, held, finish, flush, reduce]; rfl
    | some s =>
      obtain ⟨sum, sumOp⟩ := s
      have hstuck : stuckError ⟨some (sum, sumOp), some (term, op), ‹_›, ‹_›⟩ = missing (op.apply sum term) := by
        simp [stuckError, attempt, hop, settle]
      rw [hstuck]
      show ((reduce [term, sum] op >>= fun operands => reduce operands sumOp >>= pure) >>= _).mapError Fault.error = _
      rw [reduce]
      cases op.apply sum term <;> rfl

end Pending

end Keypad
