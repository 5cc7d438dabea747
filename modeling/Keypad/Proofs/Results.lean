import Keypad.Proofs.Binary64.Finite
import Keypad.Proofs.Evaluator

/-!
# Keypad.Proofs.Results — the numbers that expressions come to

* `bind_eq_ok`, `map_eq_ok`: a computation that succeeds, taken apart.
* `isFinite_product`, `isFinite_sum`: a term and a sum of finite numbers are finite, or there is an error.
* `isFinite_of_evaluate`: a result is finite, and zero has no sign.
-/

namespace Keypad

open Grammar Binary64

/-! ## Computations that succeed -/

theorem ok_bind {ε α β : Type} (a : α) (f : α → Except ε β) : (Except.ok a >>= f) = f a := rfl

theorem bind_eq_ok {ε α β : Type} {x : Except ε α} {f : α → Except ε β} {b : β} :
    (x >>= f) = .ok b ↔ ∃ a, x = .ok a ∧ f a = .ok b := by
  cases x with
  | error e => exact ⟨nofun, nofun⟩
  | ok a => exact ⟨fun h => ⟨a, rfl, h⟩, fun ⟨_, ha, h⟩ => Except.ok.inj ha ▸ h⟩

theorem map_eq_ok {ε α β : Type} {x : Except ε α} {f : α → β} {b : β} :
    x.map f = .ok b ↔ ∃ a, x = .ok a ∧ f a = b := by
  cases x with
  | error e => exact ⟨nofun, nofun⟩
  | ok a => exact ⟨fun h => ⟨a, rfl, Except.ok.inj h⟩, fun ⟨_, ha, h⟩ => Except.ok.inj ha ▸ congrArg _ h⟩

/-! ## Operands and operations -/

variable {value term x : Binary64} {rest later : List (Operator × List Char)}

/-- A number that is given on only if it is finite. -/
theorem isFinite_of_check {e : EvalError}
    (h : (if value.isFinite then .ok value else .error e : Except EvalError Binary64) = .ok x) : x.isFinite := by
  by_cases hvalue : value.isFinite = true
  · rw [if_pos hvalue] at h
    exact Except.ok.inj h ▸ hvalue
  · rw [if_neg hvalue] at h
    simp at h

theorem isFinite_of_readOperand {text : List Char} (h : readOperand text = .ok x) : x.isFinite := by
  unfold readOperand at h
  cases hread : Binary64.read? text with
  | none => rw [hread] at h; cases h
  | some value => rw [hread] at h; exact isFinite_of_check h

theorem isFinite_of_apply {op : Operator} {lhs rhs : Binary64} (h : op.apply lhs rhs = .ok x) : x.isFinite := by
  unfold Operator.apply at h
  by_cases hzero : op = .divide ∧ rhs.isZero = true
  · rw [if_pos hzero] at h; simp at h
  · rw [if_neg hzero] at h
    exact isFinite_of_check h

/-! ## Terms and sums -/

theorem isFinite_product (hvalue : value.isFinite) (h : product value rest = .ok (term, later)) : term.isFinite := by
  induction rest generalizing value with
  | nil =>
    rw [product] at h
    cases h
    exact hvalue
  | cons head rest ih =>
    obtain ⟨op, text⟩ := head
    rw [product] at h
    split at h
    · obtain ⟨operand, -, h⟩ := bind_eq_ok.mp h
      obtain ⟨next, hnext, h⟩ := bind_eq_ok.mp h
      exact ih (isFinite_of_apply hnext) h
    · cases h
      exact hvalue

theorem isFinite_sum (hvalue : value.isFinite) (h : Grammar.sum value rest = .ok x) : x.isFinite := by
  induction value, rest using Grammar.sum.induct with
  | case1 value =>
    rw [Grammar.sum] at h
    cases h
    exact hvalue
  | case2 value op text rest ih =>
    rw [sum_cons] at h
    obtain ⟨operand, -, h⟩ := bind_eq_ok.mp h
    obtain ⟨⟨term, later⟩, hterm, h⟩ := bind_eq_ok.mp h
    obtain ⟨next, hnext, h⟩ := bind_eq_ok.mp h
    exact ih operand term later hterm next (isFinite_of_apply hnext) h

theorem isFinite_expression (hvalue : value.isFinite) (h : expression value rest = .ok x) : x.isFinite := by
  unfold expression at h
  split at h
  · simp at h
  · obtain ⟨⟨term, later⟩, hterm, h⟩ := bind_eq_ok.mp h
    exact isFinite_sum (isFinite_product hvalue hterm) h

/-! ## Results -/

/-- A result is a finite number that was rounded. -/
theorem exists_roundTo_of_evaluate {tokens : List Token} (h : evaluate tokens = .ok x) :
    ∃ y : Binary64, y.isFinite ∧ x = roundTo y resultPlaces := by
  rw [evaluate_eq_expression] at h
  obtain ⟨y, hy, rfl⟩ := map_eq_ok.mp h
  obtain ⟨operand, hoperand, hy⟩ := bind_eq_ok.mp hy
  exact ⟨y, isFinite_expression (isFinite_of_readOperand hoperand) hy, rfl⟩

/-- **A result** is a finite number, and not the negative zero. -/
theorem isFinite_of_evaluate {tokens : List Token} (h : evaluate tokens = .ok x) :
    x.isFinite ∧ x ≠ signedZero true := by
  obtain ⟨y, hy, rfl⟩ := exists_roundTo_of_evaluate h
  exact isFinite_roundTo hy

end Keypad
