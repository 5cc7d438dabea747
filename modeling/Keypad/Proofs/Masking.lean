import Keypad.Proofs.Results

/-!
# Keypad.Proofs.Masking — errors that nothing behind them can hide

At the end of an expression the sum that waits is added up, while an operator may leave it waiting.  That sum can
overflow, but it neither divides nor reads an operand.

* `scan_machine`: a scan without an error ends with pending operations and the text of the last operand.
* `settle_sum_eq_error`: finishing a pending sum fails by overflow only.
* `evaluate_append_of_error`: a division by zero or a bad operand is reported whatever follows.
-/

namespace Keypad

open Grammar Machine

/-! ## Scans in two parts -/

theorem Runs.last_cons (first : List Char) (op : Operator) (text : List Char) (rest : List (Operator × List Char)) :
    Runs.last ⟨first, (op, text) :: rest⟩ = Runs.last ⟨text, rest⟩ := by
  unfold Runs.last
  rw [List.getLast?_cons]
  cases rest.getLast? <;> rfl

/-- A scan without an error ends with pending operations and the text of the last operand. -/
theorem scan_machine : ∀ (tokens : List Token) (p : Pending) (text : List Char) {m : Machine},
    (p.machine text).scan tokens = .ok m →
      ∃ q : Pending, m = q.machine (Runs.last ⟨text ++ (Runs.ofTokens tokens).first, (Runs.ofTokens tokens).rest⟩)
  | [], p, text, m, h => ⟨p, by rw [Runs.ofTokens_nil, List.append_nil]; exact (Except.ok.inj h).symm⟩
  | .literal t :: tokens, p, text, m, h => by
    have ih := scan_machine tokens p (text ++ t) h
    rwa [List.append_assoc] at ih
  | .dot :: tokens, p, text, m, h => by
    have ih := scan_machine tokens p (text ++ ['.']) h
    rwa [List.append_assoc] at ih
  | .operator op :: tokens, p, text, m, h => by
    rw [scan_cons, p.step_operator] at h
    obtain ⟨next, hnext, h⟩ := bind_eq_ok.mp h
    obtain ⟨q, -, rfl⟩ := map_eq_ok.mp hnext
    have ih := scan_machine tokens q [] h
    rw [List.nil_append] at ih
    show ∃ q : Pending, m = q.machine (Runs.last ⟨_, (op, (Runs.ofTokens tokens).first) :: (Runs.ofTokens tokens).rest⟩)
    rwa [Runs.last_cons]

/-! ## What may still fail at the end -/

/-- A sum or difference of finite numbers fails by overflow only. -/
theorem Operator.apply_eq_error_of_sum {op : Operator} (hop : op.isFactor = false) {lhs rhs : Binary64} {e : EvalError}
    (h : op.apply lhs rhs = .error e) : e = .overflow := by
  have hdivide : ¬ (op = .divide ∧ rhs.isZero = true) := by
    rintro ⟨rfl, -⟩
    cases hop
  unfold Operator.apply at h
  rw [if_neg hdivide] at h
  dsimp only at h
  split_ifs at h
  exact (Except.error.inj h).symm

theorem Pending.settle_sum_eq_error (p : Pending) {term : Binary64} {e : EvalError}
    (h : settle p.sum term = .error e) : e = .overflow := by
  cases hsum : p.sum with
  | none =>
    rw [hsum] at h
    cases h
  | some pending =>
    rw [hsum] at h
    exact Operator.apply_eq_error_of_sum (p.sum_isFactor pending hsum) h

/-- Whatever else fails at the end of the expression fails at an operator too. -/
theorem Pending.step_of_finish (p : Pending) {text : List Char} (htext : text ≠ []) {f : Fault}
    (hf : f ≠ .failed .overflow) (h : (p.machine text).finish = .error f) (op : Operator) :
    (p.machine text).step (.operator op) = .error f := by
  rw [p.finish_machine htext] at h
  rw [p.step_operator]
  cases hread : readOperand text with
  | error e =>
    rw [hread] at h
    cases h
    rfl
  | ok operand =>
    rw [hread, ok_bind] at h
    rw [ok_bind, push]
    cases hterm : settle p.term operand with
    | error e =>
      rw [hterm] at h
      cases h
      rfl
    | ok term =>
      rw [hterm, ok_bind] at h
      cases hsum : settle p.sum term with
      | error e =>
        rw [hsum] at h
        cases h
        rw [p.settle_sum_eq_error hsum] at hf
        exact absurd rfl hf
      | ok value =>
        rw [hsum] at h
        cases h

/-! ## The whole expression -/

/-- A fault that is no overflow stops the machine before it takes up what follows the next operator. -/
theorem run_append_of_fault {tokens : List Token} (hlast : (Runs.ofTokens tokens).last ≠ []) {f : Fault}
    (hf : f ≠ .failed .overflow) (h : run tokens = .error f) (op : Operator) (rest : List Token) :
    run (tokens ++ [.operator op] ++ rest) = .error f := by
  have hstop : scan {} (tokens ++ [.operator op]) = .error f := by
    rw [run] at h
    rw [scan_append]
    cases hscan : scan {} tokens with
    | error e =>
      rw [hscan] at h
      cases h
      rfl
    | ok m =>
      obtain ⟨q, hq⟩ := scan_machine tokens Pending.start [] hscan
      rw [List.nil_append] at hq
      rw [hscan, hq] at h
      rw [hq, ok_bind, scan_cons, q.step_of_finish hlast hf h op]
      rfl
  rw [run, scan_append, hstop]
  rfl

theorem evaluate_eq_error_iff {tokens : List Token} {e : EvalError} :
    evaluate tokens = .error e ↔ ∃ f, run tokens = .error f ∧ f.error = e := by
  unfold evaluate
  cases run tokens with
  | error f => exact ⟨fun h => ⟨f, rfl, Except.error.inj h⟩, fun ⟨_, hf, h⟩ => Except.error.inj hf ▸ h ▸ rfl⟩
  | ok x => exact ⟨nofun, nofun⟩

/-- **Errors that are not masked**: after an expression that ends with an operand, a division by zero or a bad operand
is reported whatever follows. -/
theorem evaluate_append_of_error {tokens : List Token} (hlast : (Runs.ofTokens tokens).last ≠ []) {e : EvalError}
    (he : e = .divisionByZero ∨ e = .malformedExpression) (h : evaluate tokens = .error e) (op : Operator)
    (rest : List Token) : evaluate (tokens ++ [.operator op] ++ rest) = .error e := by
  obtain ⟨f, hrun, rfl⟩ := evaluate_eq_error_iff.mp h
  have hf : f ≠ .failed .overflow := by
    rintro rfl
    rcases he with he | he <;> cases he
  exact evaluate_eq_error_iff.mpr ⟨f, run_append_of_fault hlast hf hrun op rest, rfl⟩

/-- Five by zero, and then plus one; a point alone, and then times two. -/
theorem evaluate_append_of_error_quotient :
    let quotient : List Token := [.literal ['5'], .operator .divide, .literal ['0']]
    (Runs.ofTokens quotient).last ≠ [] ∧ evaluate quotient = .error .divisionByZero ∧
      evaluate (quotient ++ [.operator .add] ++ [.literal ['1']]) = .error .divisionByZero ∧
      (Runs.ofTokens [.dot]).last ≠ [] ∧ evaluate [.dot] = .error .malformedExpression ∧
      evaluate ([.dot] ++ [.operator .multiply] ++ [.literal ['2']]) = .error .malformedExpression := by
  intro quotient
  have hlast : (Runs.ofTokens quotient).last ≠ [] := by decide
  have hquotient : evaluate quotient = .error .divisionByZero := by decide +kernel
  have hpoint : evaluate [.dot] = .error .malformedExpression := by decide +kernel
  exact ⟨hlast, hquotient, evaluate_append_of_error hlast (Or.inl rfl) hquotient .add _,
    by decide, hpoint, evaluate_append_of_error (by decide) (Or.inr rfl) hpoint .multiply _⟩

/-- The overflow of a sum that waits is masked: the quotient behind it is computed first. -/
example :
    let huge : List Token := [.literal "9e307".toList, .operator .add, .literal "9e307".toList]
    evaluate huge = .error .overflow ∧
      (evaluate (huge ++ [.operator .divide] ++ [.literal "10".toList])).toOption.isSome := by
  decide +kernel

end Keypad
