import Keypad.Proofs.Binary64.Spacing

/-!
# Keypad.Proofs.Binary64.SixPlaces — rounding to six decimal places in units

A number is rounded in three steps, each of which rounds to the format: it is moved up by six decimal places, taken to
the nearest whole number, and moved down again.

* `scaled`, `nearestWhole`, `sixPlaces`: the steps on magnitudes.
* `roundTo_finite_of_lt`, `roundTo_finite_of_le`: what rounding makes of a finite number.
* `roundTo_eq_self_iff`: the numbers that rounding leaves as they are.
* `ScalesBack`: a magnitude is moved up so closely that moving down finds it again.
* `sixPlaces_whole_eq_iff`: these are the whole numbers that stay, and `scaled_whole` says that all up to
  `2 ^ 53 / 15625` are among them.
-/

namespace Keypad

open Binary64

/-! ## The three steps -/

/-- A magnitude moved up by six decimal places. -/
def scaled (n : Nat) : Nat := nearest (n * 1000000) 1

/-- The whole number nearest to a magnitude, a half going up. -/
def nearestWhole (n : Nat) : Nat := roundHalfUp n unitsPerOne * unitsPerOne

/-- A magnitude rounded to six decimal places. -/
def sixPlaces (n : Nat) : Nat := nearest (nearestWhole (scaled n)) 1000000

theorem representable_scaled {n : Nat} (h : scaled n < unitsLimit) : Representable (scaled n) := representable_nearest h

theorem representable_nearestWhole {n : Nat} (h : scaled n < unitsLimit) : Representable (nearestWhole (scaled n)) :=
  representable_roundHalfUp (representable_scaled h)

theorem representable_sixPlaces {n : Nat} (h : scaled n < unitsLimit) : Representable (sixPlaces n) := by
  have hwhole := representable_nearestWhole h
  have hle : sixPlaces n ≤ nearestWhole (scaled n) :=
    nearest_le (by omega) hwhole.2 (Nat.le_mul_of_pos_right _ (by omega))
  exact representable_nearest (lt_of_le_of_lt hle hwhole.lt)

namespace Binary64

variable {s : Bool} {n : Nat} {hn : Representable n}

theorem isFinite_finite : (finite s n hn).isFinite := rfl

theorem finite_mul_million : finite s n hn * ofNat 1000000 = ofRatio s (n * 1000000) 1 := by
  have hunits := ofRatio_scale s (n * 1000000) 1 unitsPerOne_pos
  rw [Nat.mul_assoc, Nat.one_mul] at hunits
  rw [ofNat_eq (by decide), finite_mul_finite, Bool.xor_false, hunits]

theorem finite_div_million : finite s n hn / ofNat 1000000 = ofRatio s n 1000000 := by
  have hpos : 0 < 1000000 * unitsPerOne := Nat.mul_pos (by omega) unitsPerOne_pos
  rw [ofNat_eq (by decide), finite_div_finite (Nat.ne_of_gt hpos), Bool.xor_false,
    ofRatio_scale s n 1000000 unitsPerOne_pos]

/-- Rounding makes the three steps, and a zero has no sign. -/
theorem roundTo_finite_of_lt (h : scaled n < unitsLimit) : roundTo (finite s n hn) resultPlaces =
    if sixPlaces n = 0 then zero else finite s (sixPlaces n) (representable_sixPlaces h) := by
  have hup : ofRatio s (n * 1000000) 1 = finite s (scaled n) (representable_scaled h) := dif_pos h
  have hdown : ofRatio s (nearestWhole (scaled n)) 1000000 = finite s (sixPlaces n) (representable_sixPlaces h) :=
    dif_pos (representable_sixPlaces h).lt
  have hwhole : (finite s (scaled n) (representable_scaled h)).roundAway =
      finite s (nearestWhole (scaled n)) (representable_nearestWhole h) :=
    ofUnits_exact s _
  unfold roundTo
  rw [ten_pow_resultPlaces]
  dsimp only
  rw [finite_mul_million, hup, if_pos isFinite_finite, hwhole, finite_div_million, hdown]
  simp only [isZero_finite]

/-- A number that cannot be moved up is left as it is. -/
theorem roundTo_finite_of_le (h : unitsLimit ≤ scaled n) : roundTo (finite s n hn) resultPlaces = finite s n hn := by
  have hup : ofRatio s (n * 1000000) 1 = infinite s := dif_neg (Nat.not_lt.mpr h)
  unfold roundTo
  rw [ten_pow_resultPlaces]
  dsimp only
  rw [finite_mul_million, hup]
  exact if_neg nofun

/-- Rounding leaves a number as it is if its magnitude comes back, or cannot be moved up at all. -/
theorem roundTo_eq_self_iff (hx : finite s n hn ≠ signedZero true) :
    roundTo (finite s n hn) resultPlaces = finite s n hn ↔ (scaled n < unitsLimit → sixPlaces n = n) := by
  by_cases h : scaled n < unitsLimit
  · rw [roundTo_finite_of_lt h]
    by_cases hzero : sixPlaces n = 0
    · rw [if_pos hzero, hzero]
      constructor
      · rintro heq -
        injection heq
      · intro heq
        obtain rfl : 0 = n := heq h
        cases s with
        | false => rfl
        | true => exact absurd rfl hx
    · rw [if_neg hzero, finite.injEq]
      exact ⟨fun heq _ => heq.2, fun heq => ⟨rfl, heq h⟩⟩
  · rw [roundTo_finite_of_le (Nat.not_lt.mp h)]
    exact ⟨fun _ hlt => absurd hlt h, fun _ => rfl⟩

end Binary64

/-! ## Moving up and down -/

theorem nearestWhole_of_dvd {m : Nat} (h : unitsPerOne ∣ m) : nearestWhole m = m := by
  obtain ⟨k, hk⟩ := h
  rw [hk, Nat.mul_comm, nearestWhole, roundHalfUp_exact k unitsPerOne_pos]

theorem scaled_zero : scaled 0 = 0 := by
  rw [scaled, Nat.zero_mul]
  exact nearest_eq_zero (by omega)

theorem sixPlaces_zero : sixPlaces 0 = 0 := by
  rw [sixPlaces, scaled_zero, nearestWhole_of_dvd (Nat.dvd_zero _)]
  exact nearest_eq_zero (by omega)

theorem scaled_lt {n k : Nat} (hk : k < 2098) (h : n * 1000000 ≤ twoPow k) : scaled n < unitsLimit := by
  refine lt_of_le_of_lt (nearest_le Nat.one_pos (ulp_twoPow k) ?_) (twoPow_lt hk)
  rwa [Nat.mul_one]

theorem unitsPerOne_dvd_scaled_of_le {n : Nat} (h : twoPow 52 * unitsPerOne ≤ n * 1000000) :
    unitsPerOne ∣ scaled n := by
  have hlimit : Representable (twoPow 52 * unitsPerOne) := representable_mul_unitsPerOne (twoPow_le (by omega))
  refine unitsPerOne_dvd (ulp_nearest_dvd _ 1) (le_nearest Nat.one_pos hlimit.2 ?_)
  rwa [Nat.mul_one]

theorem twoPow_nineteen : twoPow 19 = 524288 := rfl

theorem twoPow_twenty : twoPow 20 = 1048576 := rfl

/-- Moving up by six places goes up 19 or 20 binary orders of magnitude. -/
theorem log2_mul_million {n : Nat} (h : n ≠ 0) :
    n.log2 + 19 ≤ (n * 1000000).log2 ∧ (n * 1000000).log2 ≤ n.log2 + 20 := by
  have hne : n * 1000000 ≠ 0 := by omega
  constructor
  · rw [le_log2_iff hne, twoPow_add, twoPow_nineteen]
    have hlow : twoPow n.log2 ≤ n := (le_log2_iff h).mp le_rfl
    omega
  · rw [← Nat.lt_succ_iff, log2_lt_iff hne, Nat.succ_eq_add_one, Nat.add_right_comm, twoPow_add,
      twoPow_twenty]
    have hhigh := lt_twoPow_log2 n
    omega

/-- A power of two is moved up exactly. -/
theorem scaled_of_power {n : Nat} (h : n ≤ twoPow n.log2) (hne : n ≠ 0) : scaled n = n * 1000000 := by
  have hpower : n = twoPow n.log2 := le_antisymm h ((le_log2_iff hne).mp le_rfl)
  have hulp : ulp (n * 1000000) ∣ n * 1000000 := by
    rw [Nat.mul_comm, hpower]
    exact ulp_mul_twoPow (by decide)
  have hexact := nearest_exact Nat.one_pos hulp
  rwa [Nat.mul_one] at hexact

/-- Moving up by six places goes less than half the spacing too far, six places up. -/
def ScalesBack (n : Nat) : Prop := 2 * Nat.dist (n * 1000000) (scaled n) < 1000000 * ulp n

instance (n : Nat) : Decidable (ScalesBack n) := inferInstanceAs (Decidable (_ < _))

theorem scalesBack_of_exact {n : Nat} (h : scaled n = n * 1000000) : ScalesBack n := by
  have hpos := ulp_pos n
  rw [ScalesBack, h, Nat.dist_self]
  omega

/-- Moving down then undoes moving up. -/
theorem ScalesBack.nearest_scaled {n : Nat} (h : ScalesBack n) (hn : ulp n ∣ n) (hne : n ≠ 0) :
    nearest (scaled n) 1000000 = n := by
  refine nearest_div_eq hn hne h ?_
  rcases Nat.lt_or_ge (twoPow n.log2) n with hlt | hge
  · exact Or.inr hlt
  · exact Or.inl (Nat.le_of_eq (scaled_of_power hge hne).symm)

/-- Moving up goes too far by a multiple of 64 spacings, and half a million spacings is none: there are no ties. -/
theorem dist_scaled_ne {n : Nat} (hn : ulp n ∣ n) (hlog : 52 ≤ n.log2) :
    2 * Nat.dist (n * 1000000) (scaled n) ≠ 1000000 * ulp n := by
  have hne : n ≠ 0 := by
    rintro rfl
    rw [Nat.log2_zero] at hlog
    omega
  have hmonotone : (n * 1000000).log2 ≤ (scaled n).log2 := by
    have h := log2_div_le_nearest (n * 1000000) 1
    rwa [Nat.div_one] at h
  have hspacing : ulp n * 64 ∣ scaled n := by
    have h64 : ulp n * 64 = twoPow (n.log2 - 52 + 6) := (twoPow_add _ 6).symm
    rw [h64]
    refine Nat.dvd_trans (twoPow_dvd ?_) (ulp_nearest_dvd _ 1)
    have hup := (log2_mul_million hne).1
    show _ ≤ (scaled n).log2 - 52
    omega
  obtain ⟨a, ha⟩ := hn
  obtain ⟨b, hb⟩ := hspacing
  have hmul : n * 1000000 = ulp n * 64 * (a * 15625) := by
    have hcomm : ulp n * 64 * (a * 15625) = ulp n * a * 1000000 := by ring
    rw [hcomm, ← ha]
  have hdist : Nat.dist (n * 1000000) (scaled n) = ulp n * (64 * Nat.dist (a * 15625) b) := by
    rw [hmul, hb, Nat.dist_mul_left, Nat.mul_assoc]
  intro heq
  have hcancel : ulp n * (2 * (64 * Nat.dist (a * 15625) b)) = ulp n * 1000000 := by
    rw [Nat.mul_comm (ulp n) 1000000, ← heq, hdist]
    ring
  have hcount := Nat.eq_of_mul_eq_mul_left (ulp_pos n) hcancel
  omega

/-! ## Whole numbers -/

/-- Six places up, a whole number is a whole number again: either it is small, or nothing finer is held. -/
theorem unitsPerOne_dvd_scaled (k : Nat) : unitsPerOne ∣ scaled (k * unitsPerOne) := by
  rcases Nat.le_total (k * 1000000) (twoPow 53) with hle | hge
  · have hexact := nearest_exact Nat.one_pos (representable_mul_unitsPerOne hle).2
    rw [Nat.mul_one, Nat.mul_right_comm] at hexact
    rw [scaled, hexact, Nat.mul_right_comm]
    exact Nat.dvd_mul_left _ _
  · refine unitsPerOne_dvd_scaled_of_le ?_
    rw [Nat.mul_right_comm]
    exact Nat.mul_le_mul_right _ (le_trans (twoPow_le (by omega)) hge)

/-- **A whole number** is rounded to itself exactly if it scales back. -/
theorem sixPlaces_whole_eq_iff {k : Nat} (hrep : Representable (k * unitsPerOne)) :
    sixPlaces (k * unitsPerOne) = k * unitsPerOne ↔ ScalesBack (k * unitsPerOne) := by
  by_cases hk : k = 0
  · rw [hk, Nat.zero_mul]
    exact iff_of_true sixPlaces_zero (scalesBack_of_exact scaled_zero)
  · have hne : k * unitsPerOne ≠ 0 := Nat.mul_ne_zero hk (Nat.ne_of_gt unitsPerOne_pos)
    have hlog : 52 ≤ (k * unitsPerOne).log2 := by
      rw [le_log2_iff hne]
      exact le_trans (twoPow_le (by omega)) (Nat.le_mul_of_pos_left unitsPerOne (Nat.pos_of_ne_zero hk))
    rw [sixPlaces, nearestWhole_of_dvd (unitsPerOne_dvd_scaled k)]
    generalize k * unitsPerOne = n at *
    constructor
    · intro h
      have hdist := dist_nearest_le (scaled n) (show 0 < 1000000 by omega)
      rw [h] at hdist
      exact lt_of_le_of_ne hdist (dist_scaled_ne hrep.2 hlog)
    · exact fun h => h.nearest_scaled hrep.2 hne

/-- Up to `2 ^ 53 / 15625` a whole number is moved up exactly. -/
theorem scaled_whole {k : Nat} (hk : k * 15625 ≤ twoPow 53) : scaled (k * unitsPerOne) = k * unitsPerOne * 1000000 := by
  have h64 : twoPow 6 = 64 := rfl
  have hcomm : k * unitsPerOne * 1000000 = k * 15625 * twoPow (6 + 1074) := by
    rw [← twoPow_mul_unitsPerOne, h64]
    ring
  have hexact : nearest (k * 15625 * twoPow (6 + 1074) * 1) 1 = k * 15625 * twoPow (6 + 1074) :=
    nearest_exact Nat.one_pos (ulp_mul_twoPow hk)
  rwa [Nat.mul_one, ← hcomm] at hexact

end Keypad
