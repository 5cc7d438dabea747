import Keypad.Binary64.Arith
import Keypad.Proofs.Binary64.Nearest
import Keypad.Rounding

/-!
# Keypad.Proofs.Binary64.Finite — results that stay in range

* `ofRatio_scale`, `ofRatio_exact`: quotients of units that are the same number, or a number of the format.
* `isFinite_ofRatio_of_le`: a quotient below one that rounds to a finite number does so too.
* `ofNat_eq`: the whole numbers up to `2 ^ 53` are numbers of the format; their products are exact.
* `isFinite_div_ofNat`, `isFinite_roundAway`: dividing by a whole number and rounding to one stay in range.
* `isFinite_roundTo`: a rounded result is finite, and zero has no sign.
-/

namespace Keypad

/-! ## Magnitudes -/

theorem Representable.lt {n : Nat} (h : Representable n) : n < unitsLimit := h.1

theorem ulp_twoPow (k : Nat) : ulp (twoPow k) ∣ twoPow k := by
  have h : ulp (1 * twoPow k) ∣ 1 * twoPow k := ulp_mul_twoPow (twoPow_pos 53)
  rwa [Nat.one_mul] at h

theorem ulp_unitsLimit : ulp unitsLimit ∣ unitsLimit := ulp_twoPow 2098

theorem twoPow_lt {m n : Nat} (h : m < n) : twoPow m < twoPow n := Nat.pow_lt_pow_right (by omega) h

theorem le_log2_iff {n k : Nat} (h : n ≠ 0) : k ≤ n.log2 ↔ twoPow k ≤ n := Nat.le_log2 h

theorem twoPow_mul_unitsPerOne (n : Nat) : twoPow n * unitsPerOne = twoPow (n + 1074) := (twoPow_add n 1074).symm

theorem representable_mul_unitsPerOne {k : Nat} (h : k ≤ twoPow 53) : Representable (k * unitsPerOne) := by
  refine ⟨?_, ulp_mul_twoPow h⟩
  calc k * unitsPerOne ≤ twoPow 53 * unitsPerOne := Nat.mul_le_mul_right unitsPerOne h
    _ = twoPow (53 + 1074) := twoPow_mul_unitsPerOne 53
    _ < twoPow 2098 := twoPow_lt (by omega)

namespace Binary64

theorem isFinite_iff {x : Binary64} : x.isFinite ↔ ∃ s n h, x = finite s n h := by
  cases x with
  | nan => simp [isFinite]
  | infinite s => simp [isFinite]
  | finite s n h => exact ⟨fun _ => ⟨s, n, h, rfl⟩, fun _ => rfl⟩

/-! ## Operations on finite numbers -/

variable {s t : Bool} {m n : Nat} {hm : Representable m} {hn : Representable n}

theorem finite_mul_finite : finite s m hm * finite t n hn = ofRatio (s ^^ t) (m * n) unitsPerOne := by
  show mul _ _ = _
  rw [mul]

theorem finite_div_finite (h : n ≠ 0) : finite s m hm / finite t n hn = ofRatio (s ^^ t) (m * unitsPerOne) n := by
  show (if n = 0 then _ else _) = _
  rw [if_neg h]

theorem roundAway_finite : (finite s n hn).roundAway = ofUnits s (roundHalfUp n unitsPerOne * unitsPerOne) := rfl

/-! ## Quotients -/

theorem ofRatio_scale (s : Bool) (num den : Nat) {k : Nat} (hk : 0 < k) :
    ofRatio s (num * k) (den * k) = ofRatio s num den := by
  simp only [ofRatio, nearest_scale num den hk]

theorem ofRatio_exact (s : Bool) {n den : Nat} (hden : 0 < den) (h : Representable n) :
    ofRatio s (n * den) den = finite s n h := by
  simp only [ofRatio, nearest_exact hden h.2, dif_pos h.lt]

theorem ofUnits_exact (s : Bool) {n : Nat} (h : Representable n) : ofUnits s n = finite s n h := by
  have h1 := ofRatio_exact s Nat.one_pos h
  rwa [Nat.mul_one] at h1

theorem isFinite_ofRatio {s : Bool} {num den : Nat} : (ofRatio s num den).isFinite ↔ nearest num den < unitsLimit := by
  unfold ofRatio
  split
  · simp [isFinite, *]
  · simp [isFinite, *]

/-- A quotient below one that rounds to a finite number rounds to a finite number. -/
theorem isFinite_ofRatio_of_le {s t : Bool} {a b c d : Nat} (hb : 0 < b) (hd : 0 < d) (h : a * d ≤ c * b)
    (hfin : (ofRatio t c d).isFinite) : (ofRatio s a b).isFinite := by
  rw [isFinite_ofRatio] at hfin ⊢
  exact lt_of_le_of_lt (nearest_mono hb hd h) hfin

theorem isFinite_ofRatio_of_representable {s : Bool} {num den n : Nat} (hden : 0 < den) (hn : Representable n)
    (h : num ≤ n * den) : (ofRatio s num den).isFinite := by
  rw [isFinite_ofRatio]
  exact lt_of_le_of_lt (nearest_le hden hn.2 h) hn.lt

/-! ## Whole numbers -/

theorem ofNat_eq {k : Nat} (h : k ≤ twoPow 53) :
    ofNat k = finite false (k * unitsPerOne) (representable_mul_unitsPerOne h) :=
  ofUnits_exact false _

theorem ofNat_mul {j k : Nat} (hj : j ≤ twoPow 53) (hk : k ≤ twoPow 53) (h : j * k ≤ twoPow 53) :
    ofNat j * ofNat k = ofNat (j * k) := by
  have hunits : j * unitsPerOne * (k * unitsPerOne) = j * k * unitsPerOne * unitsPerOne := by ring
  rw [ofNat_eq hj, ofNat_eq hk, ofNat_eq h, finite_mul_finite, hunits]
  exact ofRatio_exact false unitsPerOne_pos _

/-- A number divided by a whole number is no greater. -/
theorem isFinite_div_ofNat {x : Binary64} (hx : x.isFinite) {k : Nat} (hpos : 0 < k) (hk : k ≤ twoPow 53) :
    (x / ofNat k).isFinite := by
  obtain ⟨s, n, hn, rfl⟩ := isFinite_iff.mp hx
  have hunits : 0 < k * unitsPerOne := Nat.mul_pos hpos unitsPerOne_pos
  rw [ofNat_eq hk, finite_div_finite (Nat.ne_of_gt hunits)]
  refine isFinite_ofRatio_of_representable hunits hn (Nat.mul_le_mul_left n ?_)
  exact Nat.le_mul_of_pos_left unitsPerOne hpos

/-! ## Rounding to whole numbers -/

theorem roundHalfUp_le {num den k : Nat} (hden : 0 < den) (h : num ≤ k * den) : roundHalfUp num den ≤ k := by
  have hlt : roundHalfUp num den < k + 1 := by
    rw [roundHalfUp, Nat.div_lt_iff_lt_mul (by omega)]
    nlinarith
  omega

theorem roundHalfUp_exact (k : Nat) {den : Nat} (hden : 0 < den) : roundHalfUp (k * den) den = k := by
  have hnum : 2 * (k * den) + den = den + 2 * den * k := by ring
  rw [roundHalfUp, hnum, Nat.add_mul_div_left _ _ (by omega), Nat.div_eq_of_lt (by omega), Nat.zero_add]

/-- From `2 ^ 52` on the format holds only whole numbers. -/
theorem unitsPerOne_dvd {n : Nat} (hn : ulp n ∣ n) (h : twoPow 52 * unitsPerOne ≤ n) : unitsPerOne ∣ n := by
  rw [twoPow_mul_unitsPerOne] at h
  have hne : n ≠ 0 := Nat.ne_of_gt (lt_of_lt_of_le (twoPow_pos _) h)
  have hlog : 52 + 1074 ≤ n.log2 := (le_log2_iff hne).mpr h
  exact Nat.dvd_trans (twoPow_dvd (by omega)) hn

/-- The nearest whole number to a magnitude of the format is one too: either it is small, or nothing is rounded. -/
theorem representable_roundHalfUp (hn : Representable n) :
    Representable (roundHalfUp n unitsPerOne * unitsPerOne) := by
  rcases Nat.le_total n (twoPow 52 * unitsPerOne) with hle | hge
  · exact representable_mul_unitsPerOne (le_trans (roundHalfUp_le unitsPerOne_pos hle) (twoPow_le (by omega)))
  · obtain ⟨q, hq⟩ := unitsPerOne_dvd hn.2 hge
    have hn' : n = q * unitsPerOne := hq.trans (Nat.mul_comm unitsPerOne q)
    rw [hn', roundHalfUp_exact q unitsPerOne_pos, ← hn']
    exact hn

theorem isFinite_roundAway {x : Binary64} (hx : x.isFinite) : x.roundAway.isFinite := by
  obtain ⟨s, n, hn, rfl⟩ := isFinite_iff.mp hx
  rw [roundAway_finite, ofUnits_exact s (representable_roundHalfUp hn)]
  rfl

/-! ## Rounding to decimal places -/

theorem isZero_signedZero (s : Bool) : (signedZero s).isZero := rfl

theorem isZero_finite : (finite s n hn).isZero ↔ n = 0 := beq_iff_eq

theorem isFinite_of_isZero {x : Binary64} (h : x.isZero) : x.isFinite := by
  cases x with
  | nan => cases h
  | infinite s => cases h
  | finite s n hn => rfl

/-- A zero times a whole number is a zero. -/
theorem isFinite_zero_mul_ofNat {x : Binary64} (hx : x.isZero) {k : Nat} (hk : k ≤ twoPow 53) :
    (x * ofNat k).isFinite := by
  obtain ⟨s, n, hn, rfl⟩ := isFinite_iff.mp (isFinite_of_isZero hx)
  have hzero : n = 0 := beq_iff_eq.mp hx
  rw [ofNat_eq hk, finite_mul_finite]
  refine isFinite_ofRatio_of_representable unitsPerOne_pos hn ?_
  rw [hzero, Nat.zero_mul, Nat.zero_mul]

/-- The factor that moves six decimal places before the point. -/
theorem ten_pow_resultPlaces : (ofNat 10).pow resultPlaces = ofNat 1000000 := by
  have h100 : ofNat 10 * ofNat 10 = ofNat 100 := ofNat_mul (by decide) (by decide) (by decide)
  have h10000 : ofNat 100 * ofNat 100 = ofNat 10000 := ofNat_mul (by decide) (by decide) (by decide)
  have h1 : ofNat 1 * ofNat 100 = ofNat 100 := ofNat_mul (by decide) (by decide) (by decide)
  have h1000000 : ofNat 100 * ofNat 10000 = ofNat 1000000 := ofNat_mul (by decide) (by decide) (by decide)
  show mulPow (ofNat 1) (ofNat 10) 6 = _
  rw [mulPow, if_neg (by decide), if_neg (by decide), h100]
  rw [mulPow, if_neg (by decide), if_pos (by decide), h1, h10000]
  rw [mulPow, if_neg (by decide), if_pos (by decide), h1000000]
  rw [mulPow, if_pos (by decide)]

/-- A rounded result is a finite number, and not the negative zero. -/
theorem isFinite_roundTo {x : Binary64} (hx : x.isFinite) :
    (roundTo x resultPlaces).isFinite ∧ roundTo x resultPlaces ≠ signedZero true := by
  have hmillion : 1000000 ≤ twoPow 53 := by decide
  unfold roundTo
  rw [ten_pow_resultPlaces]
  dsimp only
  by_cases hscaled : (x * ofNat 1000000).isFinite
  · rw [if_pos hscaled]
    have hrounded := isFinite_div_ofNat (isFinite_roundAway hscaled) (by omega) hmillion
    by_cases hzero : ((x * ofNat 1000000).roundAway / ofNat 1000000).isZero
    · rw [if_pos hzero]
      exact ⟨rfl, by decide⟩
    · rw [if_neg hzero]
      refine ⟨hrounded, fun h => hzero ?_⟩
      rw [h]
      exact isZero_signedZero true
  · rw [if_neg hscaled]
    refine ⟨hx, fun h => hscaled ?_⟩
    rw [h]
    exact isFinite_zero_mul_ofNat (isZero_signedZero true) hmillion

end Binary64

end Keypad
