import Keypad.Proofs.Results

/-!
# Keypad.Proofs.Dangling — an operator without a right operand

When an expression with a value is followed by one more operator, the pending operations are carried out as far as the
operands go.  A product or quotient then takes the sum before the last term and that term for its operands, so what is
reported is up to these two.

* `Runs.split`: an expression as its last term and the sum before it; `value_eq_split`: its value settles the two.
* `Operator.strandedError`: what an operator without a right operand reports of them.
* `evaluate_append_operator`: this is the error, and it says malformed unless the borrowed operation fails.
-/

namespace Keypad

open Grammar

/-! ## The last term -/

/-- The last term of an expression, with the sum before it and the operator between them. -/
def Runs.split (r : Runs) : Except EvalError (Option (Binary64 × Operator) × Binary64) := do
  let operand ← readOperand r.first
  let (term, later) ← product operand r.rest
  lastTerm none term later

/-- The value of an expression settles its last term with the sum before it. -/
theorem Runs.value_eq_split (r : Runs) : r.value = r.split >>= fun h => settle h.1 h.2 := by
  unfold value split
  simp only [bind_assoc]
  refine bind_congr fun operand => bind_congr fun h => ?_
  exact sum_eq_lastTerm none h.1 h.2

/-- Nothing but the operator is missing. -/
theorem Runs.danglingError_append (r : Runs) (op : Operator) :
    danglingError ⟨r.first, r.rest ++ [(op, [])]⟩ = missing (r.split >>= fun h => attempt op h.1 h.2) := by
  unfold danglingError split
  simp only [List.getLast?_concat, List.dropLast_concat, early, bind_assoc]

/-! ## What is reported -/

/-- The error of an operator after the given sum and term.  A product or quotient borrows the two for its operands. -/
def Operator.strandedError (op : Operator) (before : Option (Binary64 × Operator)) (term : Binary64) : EvalError :=
  match op.isFactor, before with
  | true, some (sum, _) => missing (op.apply sum term)
  | _, _ => .malformedExpression

/-- An operation on two operands fails by its divisor or its result. -/
theorem Operator.apply_ne_malformed (op : Operator) (lhs rhs : Binary64) :
    op.apply lhs rhs ≠ .error .malformedExpression := by
  unfold Operator.apply
  dsimp only
  split_ifs <;> simp

variable {before : Option (Binary64 × Operator)} {term y : Binary64}

/-- If the expression so far has a value, only a borrowed operation can still fail. -/
theorem missing_attempt (op : Operator) (h : settle before term = .ok y) :
    missing (attempt op before term) = op.strandedError before term := by
  unfold attempt Operator.strandedError
  cases op.isFactor with
  | false =>
    show missing (settle before term) = _
    rw [h]
    rfl
  | true =>
    cases before with
    | none => rfl
    | some pending => rfl

theorem strandedError_eq_malformed_iff (op : Operator) :
    op.strandedError before term = .malformedExpression ↔
      (op.isFactor = true → ∀ sum ∈ before, ∃ z, op.apply sum.1 term = .ok z) := by
  unfold Operator.strandedError
  cases op.isFactor with
  | false => simp
  | true =>
    cases before with
    | none => simp
    | some pending =>
      have hne := op.apply_ne_malformed pending.1 term
      cases happly : op.apply pending.1 term with
      | ok z => simp [happly, missing]
      | error e =>
        rw [happly] at hne
        simpa [happly, missing] using hne

/-! ## The whole expression -/

/-- An expression with a value has a last operand, and its last term settles to the value before rounding. -/
theorem split_of_evaluate {tokens : List Token} {x : Binary64} (h : evaluate tokens = .ok x) :
    ∃ before term y, (Runs.ofTokens tokens).split = .ok (before, term) ∧ settle before term = .ok y ∧
      x = roundTo y resultPlaces := by
  rw [evaluate_eq_expression] at h
  obtain ⟨y, hy, rfl⟩ := map_eq_ok.mp h
  by_cases hlast : (Runs.ofTokens tokens).last = []
  · rw [expression_of_last_eq hlast] at hy
    cases hy
  · rw [expression_of_last_ne hlast, Runs.value_eq_split] at hy
    obtain ⟨⟨before, term⟩, hsplit, hsettle⟩ := bind_eq_ok.mp hy
    exact ⟨before, term, y, hsplit, hsettle, rfl⟩

/-- An operator at the end leaves the last run empty, so the computation up to it decides. -/
theorem evaluate_concat_operator (tokens : List Token) (op : Operator) :
    evaluate (tokens ++ [.operator op]) =
      .error (missing ((Runs.ofTokens tokens).split >>= fun h => attempt op h.1 h.2)) := by
  have hruns : Runs.ofTokens (tokens ++ [.operator op]) =
      ⟨(Runs.ofTokens tokens).first, (Runs.ofTokens tokens).rest ++ [(op, [])]⟩ :=
    Runs.ofTokens_append_operator op [] tokens
  have hlast : (Runs.ofTokens (tokens ++ [.operator op])).last = [] := by
    rw [hruns, Runs.last, List.getLast?_concat]
    rfl
  rw [evaluate_eq_expression, expression_of_last_eq hlast, hruns, Runs.danglingError_append]
  rfl

/-- **An operator without a right operand**, after an expression with a value, is always an error.  It is reported as
malformed exactly if it is a sum or difference, or nothing stands before the last term, or the product or quotient of
what stands there with the last term has a value. -/
theorem evaluate_append_operator {tokens : List Token} {x : Binary64} (h : evaluate tokens = .ok x) (op : Operator) :
    ∃ before term, (Runs.ofTokens tokens).split = .ok (before, term) ∧
      (∃ y, settle before term = .ok y ∧ x = roundTo y resultPlaces) ∧
      evaluate (tokens ++ [.operator op]) = .error (op.strandedError before term) ∧
      (evaluate (tokens ++ [.operator op]) = .error .malformedExpression ↔
        (op.isFactor = true → ∀ sum ∈ before, ∃ z, op.apply sum.1 term = .ok z)) := by
  obtain ⟨before, term, y, hsplit, hsettle, hx⟩ := split_of_evaluate h
  have herror : evaluate (tokens ++ [.operator op]) = .error (op.strandedError before term) := by
    rw [evaluate_concat_operator, hsplit, ← missing_attempt op hsettle]
    rfl
  refine ⟨before, term, hsplit, ⟨y, hsettle, hx⟩, herror, ?_⟩
  rw [herror, ← strandedError_eq_malformed_iff]
  exact ⟨Except.error.inj, congrArg Except.error⟩

/-- Two plus three, and a product that lacks its right operand: two times three would have a value. -/
theorem evaluate_append_operator_product :
    let tokens : List Token := [.literal ['2'], .operator .add, .literal ['3']]
    evaluate tokens = .ok (.ofNat 5) ∧ (Runs.ofTokens tokens).split = .ok (some (.ofNat 2, .add), .ofNat 3) ∧
      Operator.multiply.apply (.ofNat 2) (.ofNat 3) = .ok (.ofNat 6) ∧
      evaluate (tokens ++ [.operator .multiply]) = .error .malformedExpression := by
  intro tokens
  have hvalue : evaluate tokens = .ok (.ofNat 5) := by decide +kernel
  have hsplit : (Runs.ofTokens tokens).split = .ok (some (.ofNat 2, .add), .ofNat 3) := by decide +kernel
  have happly : Operator.multiply.apply (.ofNat 2) (.ofNat 3) = .ok (.ofNat 6) := by decide +kernel
  obtain ⟨before, term, hsplit', -, -, hiff⟩ := evaluate_append_operator hvalue .multiply
  obtain ⟨rfl, rfl⟩ := Prod.mk.inj (Except.ok.inj (hsplit.symm.trans hsplit'))
  refine ⟨hvalue, hsplit, happly, hiff.mpr fun _ sum hsum => ⟨.ofNat 6, ?_⟩⟩
  rw [← Option.some.inj hsum]
  dsimp only
  exact happly

/-- Five plus zero, and a quotient that lacks its right operand: it divides the five by the zero. -/
theorem dangling_quotient_divides :
    evaluate [.literal ['5'], .operator .add, .literal ['0']] = .ok (.ofNat 5) ∧
      evaluate ([.literal ['5'], .operator .add, .literal ['0']] ++ [.operator .divide]) = .error .divisionByZero := by
  decide +kernel

end Keypad
