import Keypad.Proofs.Binary64.Finite
import Mathlib.Data.Nat.Dist

/-!
# Keypad.Proofs.Binary64.Spacing — how far rounding goes

* `dist_roundHalfEven`, `dist_nearest`: a rounded quotient is off by half a spacing at most.
* `roundHalfEven_eq_of_dist_lt`, `nearest_eq_of_dist_lt`: what is nearer than that is the rounded quotient.
* `nearest_one_eq`: so is a magnitude of the format that is nearer than half a spacing, whatever its own spacing is.
* `nearest_div_eq`: a quotient is rounded to a magnitude whose multiple is nearer than half a spacing.
-/

namespace Keypad

/-! ## Whole numbers -/

theorem dist_roundHalfEven (num : Nat) {den : Nat} (hden : 0 < den) :
    2 * Nat.dist (roundHalfEven num den * den) num ≤ den := by
  have hsplit := Nat.div_add_mod num den
  have hmod := Nat.mod_lt num hden
  have hcomm : num / den * den = den * (num / den) := Nat.mul_comm _ _
  unfold roundHalfEven Nat.dist
  split
  · omega
  · split
    · rw [Nat.add_mul]
      omega
    · rcases Nat.mod_two_eq_zero_or_one (num / den) with heven | hodd
      · rw [heven, Nat.add_zero]
        omega
      · rw [hodd, Nat.add_mul]
        omega

theorem roundHalfEven_eq_of_dist_lt {num den k : Nat} (h : 2 * Nat.dist (k * den) num < den) :
    roundHalfEven num den = k := by
  have hnear := dist_roundHalfEven num (Nat.zero_lt_of_lt h)
  generalize roundHalfEven num den = r at hnear
  unfold Nat.dist at h hnear
  by_contra hne
  rcases Nat.lt_or_gt_of_ne hne with hlt | hgt
  · have hstep : (r + 1) * den ≤ k * den := Nat.mul_le_mul_right den hlt
    rw [Nat.add_mul] at hstep
    omega
  · have hstep : (k + 1) * den ≤ r * den := Nat.mul_le_mul_right den hgt
    rw [Nat.add_mul] at hstep
    omega

/-! ## Spacings -/

theorem ulp_dvd_ulp {m n : Nat} (h : m.log2 ≤ n.log2) : ulp m ∣ ulp n := twoPow_dvd (by omega)

theorem ulp_le_ulp {m n : Nat} (h : m.log2 ≤ n.log2) : ulp m ≤ ulp n := Nat.le_of_dvd (ulp_pos n) (ulp_dvd_ulp h)

theorem ulp_dvd_twoPow (n : Nat) {k : Nat} (h : n.log2 ≤ k) : ulp n ∣ twoPow k := twoPow_dvd (by omega)

/-- Rounding does not leave the binary order of magnitude downwards, so the spacing at the result is no finer. -/
theorem log2_div_le_nearest (num den : Nat) : (num / den).log2 ≤ (nearest num den).log2 := by
  by_cases hzero : num / den = 0
  · rw [hzero, Nat.log2_zero]
    exact Nat.zero_le _
  · have hle := twoPow_log2_le_nearest hzero
    exact (le_log2_iff (Nat.ne_of_gt (lt_of_lt_of_le (twoPow_pos _) hle))).mpr hle

/-! ## Rounded quotients -/

/-- A rounded quotient is off by half a spacing at most. -/
theorem dist_nearest (num : Nat) {den : Nat} (hden : 0 < den) :
    2 * Nat.dist (nearest num den * den) num ≤ den * ulp (num / den) := by
  have h := dist_roundHalfEven num (Nat.mul_pos hden (ulp_pos (num / den)))
  have hcomm : nearest num den * den =
      roundHalfEven num (den * ulp (num / den)) * (den * ulp (num / den)) := by
    unfold nearest; ring
  rwa [hcomm]

theorem dist_nearest_le (num : Nat) {den : Nat} (hden : 0 < den) :
    2 * Nat.dist (nearest num den * den) num ≤ den * ulp (nearest num den) :=
  le_trans (dist_nearest num hden) (Nat.mul_le_mul_left den (ulp_le_ulp (log2_div_le_nearest num den)))

/-- A multiple of the spacing that is nearer than half of it is the rounded quotient. -/
theorem nearest_eq_of_dist_lt {num den n : Nat} (hn : ulp (num / den) ∣ n)
    (h : 2 * Nat.dist (n * den) num < den * ulp (num / den)) : nearest num den = n := by
  obtain ⟨k, rfl⟩ := hn
  have hcomm : ulp (num / den) * k * den = k * (den * ulp (num / den)) := by ring
  rw [hcomm] at h
  rw [nearest, roundHalfEven_eq_of_dist_lt h, Nat.mul_comm]

/-! ## Binary orders of magnitude -/

theorem add_le_of_dvd_of_lt {d a b : Nat} (ha : d ∣ a) (hb : d ∣ b) (h : a < b) : a + d ≤ b := by
  have hle := Nat.le_of_dvd (by omega) (Nat.dvd_sub hb ha)
  omega

/-- The next magnitude is in the same binary order, or begins the one above. -/
theorem add_ulp_le {n : Nat} (hn : ulp n ∣ n) : n + ulp n ≤ twoPow (n.log2 + 1) :=
  add_le_of_dvd_of_lt hn (ulp_dvd_twoPow n (by omega)) (lt_twoPow_log2 n)

/-- The magnitude before is in the same binary order, unless this one is a power of two. -/
theorem twoPow_log2_add_ulp_le {n : Nat} (hn : ulp n ∣ n) (h : twoPow n.log2 < n) : twoPow n.log2 + ulp n ≤ n :=
  add_le_of_dvd_of_lt (ulp_dvd_twoPow n le_rfl) hn h

theorem twoPow_succ (k : Nat) : twoPow (k + 1) = 2 * twoPow k := by
  rw [twoPow_add, Nat.mul_comm]
  rfl

theorem twoPow_pred {k : Nat} (h : 0 < k) : twoPow k = 2 * twoPow (k - 1) := by
  obtain ⟨j, rfl⟩ := Nat.exists_eq_succ_of_ne_zero (Nat.ne_of_gt h)
  exact twoPow_succ j

theorem log2_eq_of_bounds {n k : Nat} (hlow : twoPow k ≤ n) (hhigh : n < twoPow (k + 1)) : n.log2 = k := by
  have hne : n ≠ 0 := Nat.ne_of_gt (lt_of_lt_of_le (twoPow_pos k) hlow)
  have hle := (le_log2_iff hne).mpr hlow
  have hlt := (log2_lt_iff hne).mpr hhigh
  omega

/-- A magnitude of the format is what everything nearer than half a spacing is rounded to. -/
theorem nearest_one_eq {num n : Nat} (hn : ulp n ∣ n) (h : 2 * Nat.dist n num < ulp num) : nearest num 1 = n := by
  by_cases hlog : num.log2 ≤ n.log2
  · refine nearest_eq_of_dist_lt ?_ ?_
    · rw [Nat.div_one]
      exact Nat.dvd_trans (ulp_dvd_ulp hlog) hn
    · rwa [Nat.mul_one, Nat.div_one, Nat.one_mul]
  · -- below its own order of magnitude the number is half a spacing away at least
    exfalso
    have hne : num ≠ 0 := by
      rintro rfl
      exact hlog (by rw [Nat.log2_zero]; omega)
    have hnum : twoPow num.log2 ≤ num := (le_log2_iff hne).mp le_rfl
    have hstep := add_ulp_le hn
    have hpow : twoPow (n.log2 + 1) ≤ twoPow num.log2 := twoPow_le (by omega)
    have hgap : ulp num ≤ 2 * (num - n) := by
      rcases Nat.lt_or_ge (n.log2 + 1) num.log2 with hlt | hge
      · have hhalf : twoPow num.log2 = 2 * twoPow (num.log2 - 1) := twoPow_pred (by omega)
        have hlow : twoPow (n.log2 + 1) ≤ twoPow (num.log2 - 1) := twoPow_le (by omega)
        have hulp : ulp num ≤ twoPow num.log2 := twoPow_le (by omega)
        omega
      · have hulp : ulp num ≤ twoPow (n.log2 - 52 + 1) := twoPow_le (by omega)
        rw [twoPow_succ] at hulp
        have hulpn : ulp n = twoPow (n.log2 - 52) := rfl
        omega
    unfold Nat.dist at h
    omega

/-- A quotient is rounded to a magnitude of the format whose multiple is nearer than half a spacing.  Below a power of
two the spacing is finer, so there the quotient must not be less. -/
theorem nearest_div_eq {num den n : Nat} (hn : ulp n ∣ n) (hne : n ≠ 0)
    (h : 2 * Nat.dist (n * den) num < den * ulp n) (hpower : n * den ≤ num ∨ twoPow n.log2 < n) :
    nearest num den = n := by
  have hden : 0 < den := Nat.pos_of_ne_zero fun h0 => by simp [h0] at h
  have hlow : twoPow n.log2 * den ≤ num := by
    rcases hpower with hle | hlt
    · exact le_trans (Nat.mul_le_mul_right den ((le_log2_iff hne).mp le_rfl)) hle
    · have hstep := Nat.mul_le_mul_right den (twoPow_log2_add_ulp_le hn hlt)
      rw [Nat.add_mul, Nat.mul_comm (ulp n)] at hstep
      unfold Nat.dist at h
      omega
  have hhigh : num < twoPow (n.log2 + 1) * den := by
    have hstep := Nat.mul_le_mul_right den (add_ulp_le hn)
    rw [Nat.add_mul, Nat.mul_comm (ulp n)] at hstep
    unfold Nat.dist at h
    omega
  have hlog : (num / den).log2 = n.log2 :=
    log2_eq_of_bounds ((Nat.le_div_iff_mul_le hden).mpr hlow) ((Nat.div_lt_iff_lt_mul hden).mpr hhigh)
  have hulp : ulp (num / den) = ulp n := by rw [ulp, hlog]; rfl
  refine nearest_eq_of_dist_lt ?_ ?_
  · rwa [hulp]
  · rwa [hulp]

end Keypad
