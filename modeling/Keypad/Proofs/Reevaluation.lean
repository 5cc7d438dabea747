import Keypad.Proofs.Binary64.Drift
import Keypad.Proofs.Session.Chain

/-!
# Keypad.Proofs.Reevaluation — evaluating a result once more

A result is carried as a text that reads back as the same number, so evaluating it once more only rounds it once more.

* `evaluate_carried_single`: a carried result is evaluated to itself, rounded.
* `reevaluate_iff`: the results that stay are those that are not restless.
* `reevaluated_quotient_drifts`: a quotient that does not stay.
-/

namespace Keypad

open Grammar Binary64

theorem expression_nil (x : Binary64) : expression x [] = .ok x := by
  show (product x [] >>= fun h => Grammar.sum h.1 h.2) = _
  rw [product]
  show Grammar.sum x [] = _
  rw [Grammar.sum]

/-- Nothing follows the carried text, so its number is the value, to be rounded. -/
theorem evaluate_carried_single {x : Binary64} (hx : x.isFinite) (hsign : x ≠ signedZero true) :
    evaluate [.literal (carriedText x)] = .ok (roundTo x resultPlaces) := by
  rw [Session.evaluate_carried hx hsign rfl]
  show (expression x []).map (roundTo · resultPlaces) = _
  rw [expression_nil]
  rfl

/-- **A result evaluated once more** is rounded once more.  It stays what it is exactly if it is not restless: below
`2 ^ 32`, from `2 ^ 52` millionths on, and in between outside the second quarter of a millionth. -/
theorem reevaluate_iff {tokens : List Token} {x : Binary64} (h : evaluate tokens = .ok x) :
    evaluate [.literal (carriedText x)] = .ok (roundTo x resultPlaces) ∧
      (evaluate [.literal (carriedText x)] = .ok x ↔ ¬ x.IsRestless) := by
  obtain ⟨hfinite, hsign⟩ := isFinite_of_evaluate h
  have hagain := evaluate_carried_single hfinite hsign
  refine ⟨hagain, ?_⟩
  obtain ⟨y, hy, rfl⟩ := exists_roundTo_of_evaluate h
  rw [hagain, Except.ok.injEq]
  exact roundTo_roundTo_iff hy

/-- A tenth plus two tenths: the sum is rounded to three tenths, and these stay. -/
theorem reevaluate_tenths :
    let tokens : List Token :=
      [.literal ['0'], .dot, .literal ['1'], .operator .add, .literal ['0'], .dot, .literal ['2']]
    let tenths := ofScientific false 3 (-1)
    evaluate tokens = .ok tenths ∧ ¬ tenths.IsRestless ∧
      evaluate [.literal (carriedText tenths)] = .ok (roundTo tenths resultPlaces) ∧
      evaluate [.literal (carriedText tenths)] = .ok tenths := by
  intro tokens tenths
  have hvalue : evaluate tokens = .ok tenths := by decide +kernel
  have hcalm : ¬ tenths.IsRestless := by decide +kernel
  obtain ⟨hagain, hiff⟩ := reevaluate_iff hvalue
  exact ⟨hvalue, hcalm, hagain, hiff.mpr hcalm⟩

/-- A quotient just above `2 ^ 32` that is rounded to the next number when it is evaluated once more. -/
theorem reevaluated_quotient_drifts :
    let tokens : List Token :=
      [.literal "3006484".toList, .operator .divide, .literal ['0'], .dot, .literal "0007".toList]
    let quotient := ofScientific false 4294977142857143 (-6)
    let next := ofScientific false 4294977142857144 (-6)
    evaluate tokens = .ok quotient ∧ carriedText quotient = "4294977142.857143".toList ∧
      evaluate [.literal (carriedText quotient)] = .ok next ∧ next ≠ quotient := by
  decide +kernel

end Keypad
