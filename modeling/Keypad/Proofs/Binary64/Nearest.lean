import Keypad.Binary64.Basic
import Mathlib.Tactic.Linarith
import Mathlib.Tactic.Ring

/-!
# Keypad.Proofs.Binary64.Nearest — rounding keeps order and fixes the format

* `roundHalfEven_mono`, `nearest_mono`: a greater quotient is not rounded to a smaller number.
* `nearest_scale`: only the quotient counts, not its terms.
* `nearest_exact`: a magnitude of the format is rounded to itself; so `nearest_le` and `le_nearest` bound the rounded
  quotient by every magnitude that bounds the quotient.
* `nearest_eq_zero`: less than half a unit is rounded to zero.
-/

namespace Keypad

/-! ## Whole numbers -/

theorem le_roundHalfEven (num den : Nat) : num / den ≤ roundHalfEven num den := by
  unfold roundHalfEven
  split
  · exact le_rfl
  · split <;> omega

theorem roundHalfEven_scale (num den : Nat) {k : Nat} (hk : 0 < k) :
    roundHalfEven (num * k) (den * k) = roundHalfEven num den := by
  have hlt (a b : Nat) : a * k < b * k ↔ a < b := Nat.mul_lt_mul_right hk
  unfold roundHalfEven
  rw [Nat.mul_mod_mul_right, Nat.mul_div_mul_right _ _ hk, ← Nat.mul_assoc]
  simp only [hlt]

theorem div_le_div_of_cross {a b c d : Nat} (hb : 0 < b) (hd : 0 < d) (h : a * d ≤ c * b) : a / b ≤ c / d := by
  rw [Nat.le_div_iff_mul_le hd]
  have hfloor : a / b * b ≤ a := Nat.div_mul_le_self a b
  refine Nat.le_of_mul_le_mul_right ?_ hb
  calc a / b * d * b = a / b * b * d := by ring
    _ ≤ a * d := Nat.mul_le_mul_right d hfloor
    _ ≤ c * b := h

theorem roundHalfEven_mono {a b c d : Nat} (hb : 0 < b) (hd : 0 < d) (h : a * d ≤ c * b) :
    roundHalfEven a b ≤ roundHalfEven c d := by
  rcases Nat.lt_or_eq_of_le (div_le_div_of_cross hb hd h) with hlt | heq
  · calc roundHalfEven a b ≤ a / b + 1 := roundHalfEven_le a b
      _ ≤ c / d := hlt
      _ ≤ roundHalfEven c d := le_roundHalfEven c d
  · -- equal whole parts: the fractional parts decide, and they are in the same order
    have hrem : a % b * d ≤ c % d * b := by
      have ha := Nat.div_add_mod a b
      have hc := Nat.div_add_mod c d
      rw [← ha, ← hc, heq] at h
      nlinarith [h]
    have hup (ht : b ≤ 2 * (a % b)) : d ≤ 2 * (c % d) := by
      refine Nat.le_of_mul_le_mul_right ?_ hb
      nlinarith [Nat.mul_le_mul_right d ht]
    have hover (ht : b < 2 * (a % b)) : d < 2 * (c % d) := by
      refine Nat.lt_of_mul_lt_mul_right (a := b) ?_
      nlinarith [Nat.mul_lt_mul_of_pos_right ht hd]
    unfold roundHalfEven
    rw [← heq]
    split
    · split
      · exact le_rfl
      · split <;> omega
    · split
      · rw [if_neg (by have := hover ‹_›; omega), if_pos (hover ‹_›)]
      · rw [if_neg (by have := hup (by omega); omega)]
        split <;> omega

/-! ## Magnitudes of the format -/

theorem nearest_scale (num den : Nat) {k : Nat} (hk : 0 < k) : nearest (num * k) (den * k) = nearest num den := by
  have hden : den * k * ulp (num / den) = den * ulp (num / den) * k := by ring
  unfold nearest
  rw [Nat.mul_div_mul_right _ _ hk, hden, roundHalfEven_scale _ _ hk]

theorem nearest_exact {n den : Nat} (hden : 0 < den) (h : ulp n ∣ n) : nearest (n * den) den = n := by
  obtain ⟨q, hq⟩ := h
  have hpos : 0 < den * ulp n := Nat.mul_pos hden (ulp_pos n)
  have hnum : n * den = den * ulp n * q := by
    calc n * den = ulp n * q * den := by rw [← hq]
      _ = den * ulp n * q := by ring
  have hmod : n * den % (den * ulp n) = 0 := by rw [hnum]; exact Nat.mul_mod_right _ _
  have hdiv : n * den / (den * ulp n) = q := by rw [hnum]; exact Nat.mul_div_cancel_left q hpos
  unfold nearest
  rw [Nat.mul_div_cancel n hden]
  unfold roundHalfEven
  rw [hmod, hdiv, if_pos (by omega), Nat.mul_comm]
  exact hq.symm

theorem log2_mono {m n : Nat} (h : m ≤ n) : m.log2 ≤ n.log2 := by
  by_cases hm : m = 0
  · subst hm; simp
  · rw [Nat.le_log2 (by omega)]
    exact le_trans (Nat.log2_self_le hm) h

/-- The multiple of the spacing just above the numbers with the same spacing. -/
theorem nearest_le_top (num den : Nat) : nearest num den ≤ twoPow 53 * ulp (num / den) := by
  refine Nat.mul_le_mul_right _ (le_trans (roundHalfEven_le _ _) ?_)
  rw [← Nat.div_div_eq_div_mul]
  exact div_ulp_lt (num / den)

/-- Rounding does not leave the binary order of magnitude downwards. -/
theorem twoPow_log2_le_nearest {num den : Nat} (h : num / den ≠ 0) :
    twoPow (num / den).log2 ≤ nearest num den := by
  have hfloor : num / den / ulp (num / den) ≤ roundHalfEven num (den * ulp (num / den)) := by
    rw [Nat.div_div_eq_div_mul]; exact le_roundHalfEven _ _
  have hdvd : ulp (num / den) ∣ twoPow (num / den).log2 := twoPow_dvd (by omega)
  obtain ⟨q, hq⟩ := hdvd
  have hle : q ≤ num / den / ulp (num / den) := by
    rw [Nat.le_div_iff_mul_le (ulp_pos _), Nat.mul_comm, ← hq]
    exact Nat.log2_self_le h
  calc twoPow (num / den).log2 = q * ulp (num / den) := by rw [Nat.mul_comm]; exact hq
    _ ≤ nearest num den := Nat.mul_le_mul_right _ (le_trans hle hfloor)

theorem nearest_mono {a b c d : Nat} (hb : 0 < b) (hd : 0 < d) (h : a * d ≤ c * b) : nearest a b ≤ nearest c d := by
  have hdiv : a / b ≤ c / d := div_le_div_of_cross hb hd h
  by_cases hulp : (a / b).log2 - 52 = (c / d).log2 - 52
  · have hsame : ulp (a / b) = ulp (c / d) := by rw [ulp, hulp]; rfl
    unfold nearest
    rw [hsame]
    refine Nat.mul_le_mul_right _ (roundHalfEven_mono ?_ ?_ ?_)
    · exact Nat.mul_pos hb (ulp_pos _)
    · exact Nat.mul_pos hd (ulp_pos _)
    · calc a * (d * ulp (c / d)) = a * d * ulp (c / d) := by ring
        _ ≤ c * b * ulp (c / d) := Nat.mul_le_mul_right _ h
        _ = c * (b * ulp (c / d)) := by ring
  · -- a coarser spacing begins above everything that a finer one reaches
    have hlog := log2_mono hdiv
    have hne : c / d ≠ 0 := by
      intro h0
      rw [h0] at hulp hlog
      simp only [Nat.log2_zero] at hulp hlog
      omega
    calc nearest a b ≤ twoPow 53 * ulp (a / b) := nearest_le_top a b
      _ = twoPow (53 + ((a / b).log2 - 52)) := by rw [ulp, twoPow_add]
      _ ≤ twoPow (c / d).log2 := twoPow_le (by omega)
      _ ≤ nearest c d := twoPow_log2_le_nearest hne

theorem nearest_le {num den n : Nat} (hden : 0 < den) (hn : ulp n ∣ n) (h : num ≤ n * den) : nearest num den ≤ n := by
  rw [← nearest_exact hden hn]
  exact nearest_mono hden hden (Nat.mul_le_mul_right den h)

theorem le_nearest {num den n : Nat} (hden : 0 < den) (hn : ulp n ∣ n) (h : n * den ≤ num) : n ≤ nearest num den := by
  rw [← nearest_exact hden hn]
  exact nearest_mono hden hden (Nat.mul_le_mul_right den h)

/-- Less than half a unit is rounded to zero. -/
theorem nearest_eq_zero {num den : Nat} (h : 2 * num < den) : nearest num den = 0 := by
  have hdiv : num / den = 0 := Nat.div_eq_of_lt (by omega)
  have hulp : ulp 0 = 1 := rfl
  unfold nearest
  rw [hdiv, hulp, Nat.mul_one, Nat.mul_one]
  unfold roundHalfEven
  rw [Nat.mod_eq_of_lt (by omega), if_pos h, hdiv]

end Keypad
