import Keypad.Proofs.Binary64.Integer
import Keypad.Proofs.Decimal.Carried
import Keypad.Proofs.Results

/-!
# Keypad.Proofs.Integers — expressions of whole numbers

An expression of digit strings without quotients has a value over the integers, with products before sums and both
from left to right.  As long as no operand and no intermediate result reaches `2 ^ 53`, everything is computed exactly
up to the rounding at the end.

* `Integers.value`, `Integers.results`: the value over the integers, and all that is computed on the way.
* `Grammar.fromTerm`: the grammar read on from a term, one operator at a time, as the integers are.
* `fromTerm_integers`, `value_integers`: before rounding, the value is the integer.
* `evaluate_integers`: after rounding it still is, exactly if the integer scales back.
-/

namespace Keypad

open Binary64 Decimal

/-! ## Over the integers -/

/-- The operation on integers.  An integral expression has no quotients; theirs is the Euclidean one. -/
def Operator.onIntegers : Operator → Int → Int → Int
  | add, a, b => a + b
  | subtract, a, b => a - b
  | multiply, a, b => a * b
  | divide, a, b => a / b

/-- A text of digits only, at least one. -/
def DigitString (text : List Char) : Prop := Digits text ∧ text ≠ []

instance (text : List Char) : Decidable (DigitString text) :=
  decidable_of_iff (text.all Char.isDigit ∧ text ≠ []) (and_congr_left' List.all_eq_true)

/-- The number that digits spell. -/
def digitsValue (text : List Char) : Nat := Nat.ofDigitChars 10 text 0

namespace Integers

/-- Adds a term to the sum before it, or subtracts it; the first term has no sum before it. -/
def settle (before : Option (Int × Operator)) (term : Int) : Int :=
  match before with
  | none => term
  | some (sum, op) => op.onIntegers sum term

/-- The value of an expression from its current term on, with the sum before that. -/
def value (before : Option (Int × Operator)) (term : Int) : List (Operator × List Char) → Int
  | [] => settle before term
  | (op, text) :: rest =>
    if op.isFactor then value before (op.onIntegers term (digitsValue text)) rest
    else value (some (settle before term, op)) (digitsValue text) rest

/-- All operands and results of operations from the current term on. -/
def results (before : Option (Int × Operator)) (term : Int) : List (Operator × List Char) → List Int
  | [] => [term, settle before term]
  | (op, text) :: rest =>
    if op.isFactor then term :: digitsValue text :: results before (op.onIntegers term (digitsValue text)) rest
    else term :: settle before term :: results (some (settle before term, op)) (digitsValue text) rest

end Integers

namespace Runs

/-- The value of an expression over the integers. -/
def integer (r : Runs) : Int := Integers.value none (digitsValue r.first) r.rest

/-- All operands and intermediate results of an expression over the integers. -/
def integers (r : Runs) : List Int := Integers.results none (digitsValue r.first) r.rest

/-- Every operand is a string of digits, and no operator is a quotient. -/
structure IsIntegral (r : Runs) : Prop where
  first : DigitString r.first
  rest : ∀ h ∈ r.rest, h.1 ≠ .divide ∧ DigitString h.2

instance (r : Runs) : Decidable r.IsIntegral :=
  decidable_of_iff (DigitString r.first ∧ ∀ h ∈ r.rest, h.1 ≠ .divide ∧ DigitString h.2)
    ⟨fun h => ⟨h.1, h.2⟩, fun h => ⟨h.first, h.rest⟩⟩

/-- The last operand is among the others, or the only one. -/
theorem IsIntegral.last_ne_nil {r : Runs} (h : r.IsIntegral) : r.last ≠ [] := by
  rw [last]
  cases hlast : r.rest.getLast? with
  | none => exact h.first.2
  | some head => exact (h.rest head (List.mem_of_getLast? hlast)).2.2

end Runs

section Results

variable (before : Option (Int × Operator)) (term : Int) (rest : List (Operator × List Char))

theorem Integers.term_mem_results : term ∈ results before term rest := by
  cases rest with
  | nil => simp [results]
  | cons h rest =>
    rw [results]
    split <;> exact List.mem_cons_self

theorem Integers.value_mem_results : value before term rest ∈ results before term rest := by
  induction rest generalizing before term with
  | nil => simp [value, results]
  | cons h rest ih =>
    obtain ⟨op, text⟩ := h
    rw [value, results]
    split
    · exact List.mem_cons_of_mem _ (List.mem_cons_of_mem _ (ih _ _))
    · exact List.mem_cons_of_mem _ (List.mem_cons_of_mem _ (ih _ _))

end Results

/-! ## From a term on -/

namespace Grammar

/-- What is computed from the current term on, with the sum before it. -/
def fromTerm (before : Option (Binary64 × Operator)) (term : Binary64) (rest : List (Operator × List Char)) :
    Except EvalError Binary64 := do
  let (term, later) ← product term rest
  let value ← settle before term
  sum value later

variable {before : Option (Binary64 × Operator)} {term : Binary64}

theorem fromTerm_nil : fromTerm before term [] = settle before term := by
  rw [fromTerm, product, ok_bind]
  show (settle before term >>= fun value => sum value []) = _
  cases settle before term with
  | error e => rfl
  | ok value => rw [ok_bind, sum]

theorem fromTerm_factor {op : Operator} (hop : op.isFactor = true) (text : List Char)
    (rest : List (Operator × List Char)) :
    fromTerm before term ((op, text) :: rest) = readOperand text >>= fun operand =>
      op.apply term operand >>= fun next => fromTerm before next rest := by
  rw [fromTerm, product, if_pos hop, bind_assoc]
  refine bind_congr fun operand => ?_
  rw [bind_assoc]
  rfl

theorem fromTerm_sum {op : Operator} (hop : op.isFactor = false) (text : List Char)
    (rest : List (Operator × List Char)) :
    fromTerm before term ((op, text) :: rest) = settle before term >>= fun value =>
      readOperand text >>= fun operand => fromTerm (some (value, op)) operand rest := by
  rw [fromTerm, product, if_neg (by simp [hop]), ok_bind]
  exact bind_congr fun value => sum_cons value op text rest

end Grammar

theorem Runs.value_eq_fromTerm (r : Runs) :
    r.value = readOperand r.first >>= fun operand => Grammar.fromTerm none operand r.rest := rfl

/-! ## Over the numbers of the format -/

/-- Digits are read as the number they spell. -/
theorem readOperand_digits {text : List Char} (htext : DigitString text) (hbound : digitsValue text ≤ twoPow 53) :
    readOperand text = .ok (ofNat (digitsValue text)) := by
  have hread := read?_numeral false htext.1 IsFraction.nil (by simpa using htext.2)
  have hvalue : ofScientific false (digitsValue text) 0 = ofNat (digitsValue text) := by
    rw [ofScientific_whole false (representable_mul_unitsPerOne hbound), ofNat_eq hbound]
  have hnumber : Binary64.read? text = some (ofNat (digitsValue text)) := by
    rw [← hvalue]
    simpa [signText, digitsValue] using hread
  rw [readOperand, hnumber]
  exact if_pos (isFinite_ofNat hbound)

theorem Operator.eq_multiply {op : Operator} (hfactor : op.isFactor = true) (hop : op ≠ .divide) : op = .multiply := by
  cases op with
  | multiply => rfl
  | divide => exact absurd rfl hop
  | add => cases hfactor
  | subtract => cases hfactor

theorem multiply_ofNat {j k : Nat} (hj : j ≤ twoPow 53) (hk : k ≤ twoPow 53) (h : j * k ≤ twoPow 53) :
    Operator.multiply.apply (ofNat j) (ofNat k) = .ok (ofNat (j * k)) := by
  simp [Operator.apply, ofNat_mul hj hk h, isFinite_ofNat h]

/-- A sum or difference in range is exact. -/
theorem apply_ofInt {op : Operator} (hop : op.isFactor = false) {a : Int} {k : Nat} (ha : a.natAbs ≤ twoPow 53)
    (hk : k ≤ twoPow 53) (h : (op.onIntegers a k).natAbs ≤ twoPow 53) :
    op.apply (ofInt a) (ofNat k) = .ok (ofInt (op.onIntegers a k)) := by
  cases op with
  | add =>
    have hfinite : (ofInt (a + k)).isFinite := isFinite_ofInt h
    simp [Operator.apply, Operator.onIntegers, ofInt_add_ofNat ha hk, hfinite]
  | subtract =>
    have hfinite : (ofInt (a - k)).isFinite := isFinite_ofInt h
    simp [Operator.apply, Operator.onIntegers, ofInt_sub_ofNat ha hk, hfinite]
  | multiply => cases hop
  | divide => cases hop

/-- The sum before a term as a number of the format. -/
def heldIntegers (before : Option (Int × Operator)) : Option (Binary64 × Operator) :=
  before.map fun h => (ofInt h.1, h.2)

/-- The sum before a term is in range and waits with a sum or difference. -/
def InRange (before : Option (Int × Operator)) : Prop :=
  ∀ h ∈ before, h.2.isFactor = false ∧ h.1.natAbs ≤ twoPow 53

theorem settle_integers {before : Option (Int × Operator)} {term : Nat} (hbefore : InRange before)
    (hterm : term ≤ twoPow 53) (h : (Integers.settle before term).natAbs ≤ twoPow 53) :
    Grammar.settle (heldIntegers before) (ofNat term) = .ok (ofInt (Integers.settle before term)) := by
  cases before with
  | none => exact congrArg Except.ok (ofInt_natCast term).symm
  | some pending =>
    obtain ⟨hop, hsum⟩ := hbefore pending rfl
    exact apply_ofInt hop hsum hterm h

/-- **Exact evaluation**: as long as everything is in range, the terms and sums that are computed are those over the
integers. -/
theorem fromTerm_integers {rest : List (Operator × List Char)} (hrest : ∀ h ∈ rest, h.1 ≠ .divide ∧ DigitString h.2) :
    ∀ {before : Option (Int × Operator)} {term : Nat}, InRange before →
      (∀ z ∈ Integers.results before term rest, z.natAbs ≤ twoPow 53) →
      Grammar.fromTerm (heldIntegers before) (ofNat term) rest = .ok (ofInt (Integers.value before term rest)) := by
  induction rest with
  | nil =>
    intro before term hbefore hbound
    rw [Integers.results, List.forall_mem_cons, List.forall_mem_singleton, Int.natAbs_natCast] at hbound
    rw [Grammar.fromTerm_nil, Integers.value]
    exact settle_integers hbefore hbound.1 hbound.2
  | cons head rest ih =>
    obtain ⟨op, text⟩ := head
    intro before term hbefore hbound
    obtain ⟨⟨hop, htext⟩, hlater⟩ := List.forall_mem_cons.mp hrest
    rw [Integers.results] at hbound
    rw [Integers.value]
    cases hfactor : op.isFactor with
    | true =>
      obtain rfl := Operator.eq_multiply hfactor hop
      have hproduct : Operator.multiply.onIntegers term (digitsValue text) = (term * digitsValue text : Nat) :=
        (Int.natCast_mul term (digitsValue text)).symm
      rw [if_pos hfactor, hproduct, List.forall_mem_cons, List.forall_mem_cons, Int.natAbs_natCast,
        Int.natAbs_natCast] at hbound
      obtain ⟨hterm, hnumber, hbound⟩ := hbound
      have happly := multiply_ofNat hterm hnumber (hbound _ (Integers.term_mem_results _ _ _))
      rw [if_pos rfl, hproduct, Grammar.fromTerm_factor hfactor, readOperand_digits htext hnumber, ok_bind, happly,
        ok_bind]
      exact ih hlater hbefore hbound
    | false =>
      rw [if_neg (by simp [hfactor]), List.forall_mem_cons, List.forall_mem_cons, Int.natAbs_natCast] at hbound
      obtain ⟨hterm, hsum, hbound⟩ := hbound
      have hnumber : digitsValue text ≤ twoPow 53 := hbound _ (Integers.term_mem_results _ _ _)
      have hnext : InRange (some (Integers.settle before term, op)) := by
        intro h hmem
        obtain rfl := Option.some.inj hmem
        exact ⟨hfactor, hsum⟩
      rw [if_neg (by decide), Grammar.fromTerm_sum hfactor, settle_integers hbefore hterm hsum, ok_bind,
        readOperand_digits htext hnumber, ok_bind]
      exact ih hlater hnext hbound

/-! ## The whole expression -/

section Whole

variable {tokens : List Token} (hform : (Runs.ofTokens tokens).IsIntegral)
  (hbound : ∀ z ∈ (Runs.ofTokens tokens).integers, z.natAbs < twoPow 53)
include hform hbound

theorem value_integers : (Runs.ofTokens tokens).value = .ok (ofInt (Runs.ofTokens tokens).integer) := by
  have hrange (z : Int) (hz : z ∈ (Runs.ofTokens tokens).integers) : z.natAbs ≤ twoPow 53 :=
    Nat.le_of_lt (hbound z hz)
  have hfirst : digitsValue (Runs.ofTokens tokens).first ≤ twoPow 53 := hrange _ (Integers.term_mem_results _ _ _)
  rw [Runs.value_eq_fromTerm, readOperand_digits hform.first hfirst, ok_bind]
  exact fromTerm_integers hform.rest (fun h hmem => absurd hmem (Option.not_mem_none h)) hrange

/-- **Whole numbers**: an expression of digit strings without quotients, whose operands and intermediate results are
below `2 ^ 53`, has the rounded integer for its value.  That is the integer itself exactly if the integer scales back,
as every one up to `2 ^ 53 / 15625` does. -/
theorem evaluate_integers :
    evaluate tokens = .ok (roundTo (ofInt (Runs.ofTokens tokens).integer) resultPlaces) ∧
      (evaluate tokens = .ok (ofInt (Runs.ofTokens tokens).integer) ↔
        ScalesBack ((Runs.ofTokens tokens).integer.natAbs * unitsPerOne)) ∧
      ((Runs.ofTokens tokens).integer.natAbs * 15625 ≤ twoPow 53 →
        evaluate tokens = .ok (ofInt (Runs.ofTokens tokens).integer)) := by
  have hvalue := value_integers hform hbound
  have hrange : (Runs.ofTokens tokens).integer.natAbs ≤ twoPow 53 :=
    Nat.le_of_lt (hbound _ (Integers.value_mem_results _ _ _))
  have hlast : (Runs.ofTokens tokens).last ≠ [] := hform.last_ne_nil
  have hrounded : evaluate tokens = .ok (roundTo (ofInt (Runs.ofTokens tokens).integer) resultPlaces) := by
    rw [evaluate_eq_expression, expression_of_last_ne hlast, hvalue]
    rfl
  have hiff : evaluate tokens = .ok (ofInt (Runs.ofTokens tokens).integer) ↔
      ScalesBack ((Runs.ofTokens tokens).integer.natAbs * unitsPerOne) := by
    rw [hrounded, Except.ok.injEq, roundTo_ofInt_iff hrange]
  exact ⟨hrounded, hiff, fun hsmall => hiff.mpr (scalesBack_of_exact (scaled_whole hsmall))⟩

end Whole

/-- Twelve times three, less forty. -/
theorem evaluate_integers_difference :
    let tokens : List Token :=
      [.literal "12".toList, .operator .multiply, .literal ['3'], .operator .subtract, .literal "40".toList]
    (Runs.ofTokens tokens).IsIntegral ∧ (Runs.ofTokens tokens).integers = [12, 3, 36, 36, 40, -4] ∧
      (∀ z ∈ (Runs.ofTokens tokens).integers, z.natAbs < twoPow 53) ∧ (Runs.ofTokens tokens).integer = -4 ∧
      evaluate tokens = .ok (ofInt (-4)) := by
  intro tokens
  have hform : (Runs.ofTokens tokens).IsIntegral := by decide
  have hresults : (Runs.ofTokens tokens).integers = [12, 3, 36, 36, 40, -4] := by decide
  have hbound : ∀ z ∈ (Runs.ofTokens tokens).integers, z.natAbs < twoPow 53 := by
    rw [hresults]
    decide
  exact ⟨hform, hresults, hbound, rfl, (evaluate_integers hform hbound).2.2 (by decide)⟩

/-- A square below `2 ^ 53` that does not scale back. -/
theorem evaluate_square_inexact :
    let tokens : List Token := [.literal "999999".toList, .operator .multiply, .literal "999999".toList]
    (Runs.ofTokens tokens).IsIntegral ∧
      (Runs.ofTokens tokens).integers = [999999, 999999, 999998000001, 999998000001] ∧
      (∀ z ∈ (Runs.ofTokens tokens).integers, z.natAbs < twoPow 53) ∧
      (Runs.ofTokens tokens).integer = 999998000001 ∧ ¬ ScalesBack (999998000001 * unitsPerOne) ∧
      evaluate tokens = .ok (ofScientific false 9999980000009999 (-4)) ∧
      evaluate tokens ≠ .ok (ofInt 999998000001) := by
  decide +kernel

end Keypad
