import Keypad.Decimal.Literal
import Keypad.Proofs.Binary64.Finite

/-!
# Keypad.Proofs.Decimal.Scientific — the number of a coefficient and an exponent

* `ofScientific_eq_ratio`: the exactly rounded quotient, in every common scale; the cut-offs for large exponents do not
  change it.
* `ofScientific_eq_finite_iff`: a decimal reads as a number when its quotient is rounded to the magnitude.
* `ofScientific_shift`: zeros moved from the coefficient to the exponent do not matter.
* `isFinite_ofScientific_of_le`: a decimal below one that is read as a finite number is read as one.
* `ofScientific_sign`: the sign only sets the sign.
-/

namespace Keypad

theorem tenPow_zero : tenPow 0 = 1 := rfl

theorem twoPow_mul_three_le (n : Nat) : twoPow (3 * n) ≤ tenPow n := by
  have hpow : twoPow (3 * n) = 8 ^ n := pow_mul 2 3 n
  rw [hpow]
  exact Nat.pow_le_pow_left (by omega) n

theorem tenPow_le {m n : Nat} (h : m ≤ n) : tenPow m ≤ tenPow n := Nat.pow_le_pow_right (by omega) h

namespace Binary64

/-- The quotient of units that a decimal stands for, in the scale `10 ^ places`. -/
def decimalRatio (s : Bool) (coefficient : Nat) (exponent : Int) (places : Nat) : Binary64 :=
  ofRatio s (coefficient * tenPow (exponent + places).toNat * unitsPerOne) (tenPow places)

variable {s : Bool} {c : Nat} {e : Int}

/-- All scales that leave no fraction give the same number. -/
theorem decimalRatio_eq {places : Nat} (h : 0 ≤ e + places) :
    decimalRatio s c e places = decimalRatio s c e (-e).toNat := by
  obtain ⟨more, rfl⟩ : ∃ more, places = (-e).toNat + more := ⟨places - (-e).toNat, by omega⟩
  have hexp : (e + ((-e).toNat + more : Nat)).toNat = (e + (-e).toNat).toNat + more := by omega
  have hnum : c * tenPow ((e + (-e).toNat).toNat + more) * unitsPerOne =
      c * tenPow (e + (-e).toNat).toNat * unitsPerOne * tenPow more := by
    rw [tenPow_add]; ring
  unfold decimalRatio
  rw [hexp, hnum, tenPow_add]
  exact ofRatio_scale s _ _ (tenPow_pos more)

theorem decimalRatio_zero (places : Nat) : decimalRatio s 0 e places = signedZero s := by
  have h := ofRatio_exact s (tenPow_pos places) (n := 0) ⟨unitsLimit_pos, Nat.dvd_zero _⟩
  unfold decimalRatio
  rwa [Nat.zero_mul, Nat.zero_mul, ← Nat.zero_mul (tenPow places)]

/-- A coefficient of one is infinite from the exponent `401` on. -/
theorem decimalRatio_of_large (hc : c ≠ 0) (he : 400 < e) : decimalRatio s c e 0 = infinite s := by
  have hunits : unitsLimit * tenPow 0 ≤ c * tenPow (e + (0 : Nat)).toNat * unitsPerOne := by
    have hten : twoPow 1203 ≤ tenPow (e + (0 : Nat)).toNat := le_trans (twoPow_mul_three_le 401) (tenPow_le (by omega))
    calc unitsLimit * tenPow 0 = unitsLimit := by rw [tenPow_zero, Nat.mul_one]
      _ ≤ twoPow (1203 + 1074) := twoPow_le (m := 2098) (by omega)
      _ = twoPow 1203 * unitsPerOne := (twoPow_mul_unitsPerOne 1203).symm
      _ ≤ c * tenPow (e + (0 : Nat)).toNat * unitsPerOne :=
        Nat.mul_le_mul_right _ (le_trans hten (Nat.le_mul_of_pos_left _ (Nat.pos_of_ne_zero hc)))
  have hlimit := le_nearest (tenPow_pos 0) ulp_unitsLimit hunits
  rw [decimalRatio, ofRatio, dif_neg (by omega)]

/-- A coefficient has fewer decimal digits than bits, so one far behind the point is rounded to zero. -/
theorem decimalRatio_of_small (he : e + c.log2 < -400) : decimalRatio s c e (-e).toNat = signedZero s := by
  have hzero : (e + (-e).toNat).toNat = 0 := by omega
  have hsmall : 2 * (c * tenPow 0 * unitsPerOne) < tenPow (-e).toNat := by
    have htwo : 2 = twoPow 1 := rfl
    calc 2 * (c * tenPow 0 * unitsPerOne) = twoPow 1 * (c * unitsPerOne) := by rw [tenPow_zero, Nat.mul_one, htwo]
      _ < twoPow 1 * (twoPow (c.log2 + 1) * unitsPerOne) :=
        Nat.mul_lt_mul_of_pos_left (Nat.mul_lt_mul_of_pos_right (lt_twoPow_log2 c) unitsPerOne_pos) (twoPow_pos 1)
      _ = twoPow (1 + (c.log2 + 1 + 1074)) := by rw [twoPow_mul_unitsPerOne, ← twoPow_add]
      _ ≤ twoPow (3 * (-e).toNat) := twoPow_le (by omega)
      _ ≤ tenPow (-e).toNat := twoPow_mul_three_le _
  have hnearest := nearest_eq_zero hsmall
  rw [decimalRatio, hzero, ofRatio]
  simp only [hnearest, dif_pos unitsLimit_pos]
  rfl

/-- **Reading**: the exactly rounded quotient, in every scale that leaves no fraction. -/
theorem ofScientific_eq_ratio {places : Nat} (h : 0 ≤ e + places) :
    ofScientific s c e = decimalRatio s c e places := by
  rw [decimalRatio_eq h]
  unfold ofScientific
  by_cases hc : c = 0
  · rw [if_pos hc, hc, decimalRatio_zero]
  rw [if_neg hc]
  by_cases hlarge : 400 < e
  · have hplaces : (-e).toNat = 0 := by omega
    rw [if_pos hlarge, hplaces, decimalRatio_of_large hc hlarge]
  rw [if_neg hlarge]
  by_cases hsmall : e + c.log2 < -400
  · rw [if_pos hsmall, decimalRatio_of_small hsmall]
  rw [if_neg hsmall, decimalRatio]
  by_cases he : 0 ≤ e
  · have hplaces : (-e).toNat = 0 := by omega
    have hexp : (e + (0 : Nat)).toNat = e.toNat := by omega
    rw [if_pos he, hplaces, hexp]
    rfl
  · have hexp : (e + (-e).toNat).toNat = 0 := by omega
    rw [if_neg he, hexp, tenPow_zero, Nat.mul_one]

/-- A decimal reads as a finite number when its quotient is rounded to the magnitude, whatever the sign. -/
theorem ofScientific_eq_finite_iff {n places : Nat} {hn : Representable n} (h : 0 ≤ e + places) :
    ofScientific s c e = finite s n hn ↔
      nearest (c * tenPow (e + places).toNat * unitsPerOne) (tenPow places) = n := by
  rw [ofScientific_eq_ratio h, decimalRatio, ofRatio]
  constructor
  · intro heq
    split at heq
    · exact (finite.inj heq).2
    · cases heq
  · intro hnearest
    have hlt : nearest (c * tenPow (e + places).toNat * unitsPerOne) (tenPow places) < unitsLimit := hnearest ▸ hn.lt
    rw [dif_pos hlt]
    congr

theorem exists_eq_finite (h : (ofScientific s c e).isFinite) : ∃ n hn, ofScientific s c e = finite s n hn := by
  have hplaces : 0 ≤ e + ((-e).toNat : Nat) := by omega
  rw [ofScientific_eq_ratio hplaces, decimalRatio, ofRatio] at h ⊢
  split
  · exact ⟨_, representable_nearest ‹_›, rfl⟩
  · rename_i hlimit
    rw [dif_neg hlimit] at h
    cases h

/-- Zeros at the end of the coefficient are places of the exponent. -/
theorem ofScientific_shift (k : Nat) : ofScientific s (c * tenPow k) (e - k) = ofScientific s c e := by
  obtain ⟨places, h, h'⟩ : ∃ places : Nat, 0 ≤ e - k + places ∧ 0 ≤ e + places :=
    ⟨(k - e).toNat + (-e).toNat, by omega, by omega⟩
  have hexp : (e + places).toNat = k + (e - k + places).toNat := by omega
  rw [ofScientific_eq_ratio h, ofScientific_eq_ratio h', decimalRatio, decimalRatio, hexp, tenPow_add k,
    Nat.mul_assoc c]

/-- A decimal below one that is read as a finite number is read as a finite number. -/
theorem isFinite_ofScientific_of_le {t : Bool} {c' k : Nat} {e' : Int} (hfin : (ofScientific s c e).isFinite)
    (hc : c' * tenPow k ≤ c) (he : e' ≤ e + k) : (ofScientific t c' e').isFinite := by
  obtain ⟨places, h, h'⟩ : ∃ places : Nat, 0 ≤ e + places ∧ 0 ≤ e' + places :=
    ⟨(-e).toNat + (-e').toNat, by omega, by omega⟩
  rw [ofScientific_eq_ratio h] at hfin
  rw [ofScientific_eq_ratio h']
  refine isFinite_ofRatio_of_le (tenPow_pos places) (tenPow_pos places) (Nat.mul_le_mul_right _ ?_) hfin
  refine Nat.mul_le_mul_right _ ?_
  calc c' * tenPow (e' + places).toNat ≤ c' * tenPow (k + (e + places).toNat) :=
        Nat.mul_le_mul_left c' (tenPow_le (by omega))
    _ = c' * tenPow k * tenPow (e + places).toNat := by rw [tenPow_add, Nat.mul_assoc]
    _ ≤ c * tenPow (e + places).toNat := Nat.mul_le_mul_right _ hc

/-- The sign of a decimal only sets the sign of the number. -/
theorem ofScientific_sign {t : Bool} {n : Nat} {hn : Representable n} (h : ofScientific t c e = finite t n hn) :
    ofScientific s c e = finite s n hn := by
  have hplaces : 0 ≤ e + ((-e).toNat : Nat) := by omega
  exact (ofScientific_eq_finite_iff hplaces).mpr ((ofScientific_eq_finite_iff hplaces).mp h)

end Binary64

end Keypad
