import Keypad.Proofs.Binary64.SixPlaces

/-!
# Keypad.Proofs.Binary64.Integer — integers as numbers of the format

* `ofInt`: the number nearest to an integer; up to `2 ^ 53` it is the integer, and zero has no sign.
* `ofInt_add_ofNat`, `ofInt_sub_ofNat`: sums and differences in that range are exact; `ofNat_mul` is the product.
* `roundTo_ofInt_iff`: the integers that rounding to six places leaves as they are.
-/

namespace Keypad.Binary64

/-- The number nearest to an integer. -/
def ofInt (z : Int) : Binary64 := ofUnits (decide (z < 0)) (z.natAbs * unitsPerOne)

theorem ofInt_natCast (k : Nat) : ofInt k = ofNat k := by
  have hsign : decide ((k : Int) < 0) = false := by simp
  rw [ofInt, hsign, Int.natAbs_natCast, ofNat]

variable {a b : Int} {k : Nat}

theorem ofInt_eq (h : a.natAbs ≤ twoPow 53) :
    ofInt a = finite (decide (a < 0)) (a.natAbs * unitsPerOne) (representable_mul_unitsPerOne h) :=
  ofUnits_exact _ _

theorem isFinite_ofInt (h : a.natAbs ≤ twoPow 53) : (ofInt a).isFinite := by
  rw [ofInt_eq h]
  rfl

theorem isFinite_ofNat (h : k ≤ twoPow 53) : (ofNat k).isFinite := by
  rw [ofNat_eq h]
  rfl

/-! ## Sums and differences -/

theorem signed_natAbs (a : Int) (u : Nat) : signed (decide (a < 0)) (a.natAbs * u) = a * u := by
  unfold signed
  rcases lt_or_ge a 0 with hneg | hpos
  · rw [if_pos (decide_eq_true hneg), Int.natCast_mul, ← Int.neg_mul]
    congr 1
    omega
  · rw [if_neg (by simpa using hpos), Int.natCast_mul]
    congr 1
    omega

theorem mul_natCast_neg_iff {u : Nat} (hu : 0 < u) : a * u < 0 ↔ a < 0 := by
  rw [Int.mul_neg_iff]
  omega

theorem sub_eq (x y : Binary64) : x - y = x + -y := rfl

theorem neg_finite {s : Bool} {n : Nat} (hn : Representable n) : -finite s n hn = finite (!s) n hn := rfl

/-- Terms that are whole numbers have a whole sum; it is no negative zero unless both terms are negative. -/
theorem add_of_signed {s t : Bool} {m n : Nat} {hm : Representable m} {hn : Representable n}
    (ha : signed s m = a * unitsPerOne) (hb : signed t n = b * unitsPerOne) (hsign : a + b = 0 → (s && t) = false) :
    finite s m hm + finite t n hn = ofInt (a + b) := by
  have hone : (0 : Int) < unitsPerOne := Int.natCast_pos.mpr unitsPerOne_pos
  have hsum : signed s m + signed t n = (a + b) * unitsPerOne := by rw [ha, hb, Int.add_mul]
  show (if signed s m + signed t n = 0 then signedZero (s && t)
    else ofUnits (decide (signed s m + signed t n < 0)) (signed s m + signed t n).natAbs) = _
  rw [hsum]
  by_cases hzero : a + b = 0
  · have hnone : signedZero false = ofInt 0 := by decide +kernel
    rw [hsign hzero, hzero, Int.zero_mul, if_pos rfl, hnone]
  · rw [if_neg (Int.mul_ne_zero hzero (Int.ne_of_gt hone)), Int.natAbs_mul, Int.natAbs_natCast, ofInt]
    simp only [mul_natCast_neg_iff unitsPerOne_pos]

variable (ha : a.natAbs ≤ twoPow 53) (hk : k ≤ twoPow 53)
include ha hk

theorem ofInt_add_ofNat : ofInt a + ofNat k = ofInt (a + k) := by
  rw [ofInt_eq ha, ofNat_eq hk]
  exact add_of_signed (signed_natAbs a _) (Int.natCast_mul k _) fun _ => Bool.and_false _

theorem ofInt_sub_ofNat : ofInt a - ofNat k = ofInt (a - k) := by
  have hneg : signed (!false) (k * unitsPerOne) = -(k : Int) * unitsPerOne := by
    rw [Bool.not_false, signed_true, Int.neg_mul, Int.natCast_mul]
  rw [sub_eq, ofInt_eq ha, ofNat_eq hk, neg_finite, Int.sub_eq_add_neg]
  refine add_of_signed (signed_natAbs a _) hneg fun hzero => ?_
  rw [Bool.not_false, Bool.and_true, decide_eq_false_iff_not]
  omega

/-! ## Rounding to six places -/

omit hk in
/-- **An integer** is rounded to itself exactly if it scales back. -/
theorem roundTo_ofInt_iff : roundTo (ofInt a) resultPlaces = ofInt a ↔ ScalesBack (a.natAbs * unitsPerOne) := by
  have hrep := representable_mul_unitsPerOne ha
  have hsign : finite (decide (a < 0)) (a.natAbs * unitsPerOne) hrep ≠ signedZero true := by
    intro h
    injection h with hneg hzero
    have hnonzero : a.natAbs ≠ 0 := by
      have hlt := of_decide_eq_true hneg
      omega
    exact Nat.mul_ne_zero hnonzero (Nat.ne_of_gt unitsPerOne_pos) hzero
  have hlt : scaled (a.natAbs * unitsPerOne) < unitsLimit := by
    refine scaled_lt (k := 53 + 1074 + 20) (by omega) ?_
    rw [twoPow_add, ← twoPow_mul_unitsPerOne]
    exact Nat.mul_le_mul (Nat.mul_le_mul_right _ ha) (by decide)
  rw [ofInt_eq ha, roundTo_eq_self_iff hsign, ← sixPlaces_whole_eq_iff hrep]
  exact ⟨fun h => h hlt, fun h _ => h⟩

end Keypad.Binary64
