import Keypad.Proofs.Binary64.SixPlaces

/-!
# Keypad.Proofs.Binary64.Drift — rounding once more what is rounded

A rounded magnitude `v` stands for a whole number `r` of millionths: it is the magnitude nearest to `r` millionths.
Rounded again it stays if `r` is found again, six places up.

* `sixPlaces_of_small`: below `2 ^ 32` the spacing is fine enough.
* `sixPlaces_of_large`: from `2 ^ 52` millionths on there are only whole numbers, and the roundings undo each other.
* `Restless`, `sixPlaces_of_between`: in between, the step to whole numbers meets halves that moving up has made, and
  goes on from them to the next millionth.
* `sixPlaces_eq_self_iff`: so the rounded magnitudes that do not stay are the restless ones.
-/

namespace Keypad

open Binary64

/-! ## Nearest whole numbers -/

theorem nearestWhole_eq {m k : Nat} (hlow : 2 * (k * unitsPerOne) ≤ 2 * m + unitsPerOne)
    (hhigh : 2 * m < 2 * (k * unitsPerOne) + unitsPerOne) : nearestWhole m = k * unitsPerOne := by
  have hpos := unitsPerOne_pos
  have hround : roundHalfUp m unitsPerOne = k := by
    refine Nat.div_eq_of_lt_le ?_ ?_
    · rw [Nat.mul_left_comm]
      exact hlow
    · rw [Nat.mul_left_comm, Nat.add_mul]
      omega
  rw [nearestWhole, hround]

theorem nearestWhole_of_dist_lt {m r : Nat} (hr : unitsPerOne ∣ r) (h : 2 * Nat.dist m r < unitsPerOne) :
    nearestWhole m = r := by
  obtain ⟨k, hk⟩ := hr
  rw [Nat.mul_comm] at hk
  unfold Nat.dist at h
  rw [hk] at h ⊢
  exact nearestWhole_eq (by omega) (by omega)

theorem eq_of_dvd_of_dist_lt {d a b : Nat} (ha : d ∣ a) (hb : d ∣ b) (h : Nat.dist a b < d) : a = b := by
  unfold Nat.dist at h
  rcases Nat.lt_trichotomy a b with hlt | heq | hgt
  · have hstep := add_le_of_dvd_of_lt ha hb hlt
    omega
  · exact heq
  · have hstep := add_le_of_dvd_of_lt hb ha hgt
    omega

/-- An even whole part is rounded to itself up to half the divisor, the tie included. -/
theorem roundHalfEven_of_even {num den q f : Nat} (hden : 0 < den) (hnum : num = 2 * q * den + f) (hf : 2 * f ≤ den) :
    roundHalfEven num den = 2 * q := by
  have hlt : f < den := by omega
  have hcomm : num = f + den * (2 * q) := by rw [hnum]; ring
  have hdiv : num / den = 2 * q := by
    rw [hcomm, Nat.add_mul_div_left _ _ hden, Nat.div_eq_of_lt hlt, Nat.zero_add]
  have hmod : num % den = f := by rw [hcomm, Nat.add_mul_mod_self_left, Nat.mod_eq_of_lt hlt]
  unfold roundHalfEven
  rw [hdiv, hmod]
  split
  · rfl
  · rw [if_neg (by omega), Nat.mul_mod_right, Nat.add_zero]

/-! ## Six places up -/

theorem twoPow_mul_twoPow_eq_one {j k : Nat} (h : j + k = 1074) : twoPow j * twoPow k = unitsPerOne := by
  rw [← twoPow_add, h]
  rfl

theorem dist_scaled (n : Nat) : 2 * Nat.dist (scaled n) (n * 1000000) ≤ ulp (n * 1000000) := by
  have h := dist_nearest (n * 1000000) Nat.one_pos
  rwa [Nat.mul_one, Nat.one_mul, Nat.div_one] at h

theorem ulp_dvd_scaled (n : Nat) : ulp (n * 1000000) ∣ scaled n := by
  have h : ulp (n * 1000000 / 1) ∣ scaled n := Nat.dvd_mul_left _ _
  rwa [Nat.div_one] at h

theorem ulp_mul_million {n k : Nat} (hlog : 52 ≤ n.log2) (hk : (n * 1000000).log2 = n.log2 + k) :
    ulp (n * 1000000) = twoPow k * ulp n := by
  rw [ulp, hk, ulp, ← twoPow_add]
  congr 1
  omega

theorem ulp_mul_million_le {n : Nat} (hne : n ≠ 0) : ulp (n * 1000000) ≤ 1048576 * ulp n := by
  have hup := (log2_mul_million hne).2
  rw [← twoPow_twenty, ulp, ulp, ← twoPow_add]
  exact twoPow_le (by omega)

/-! ## Rounding again -/

section Again

variable {r v : Nat} (hr : unitsPerOne ∣ r) (hv : nearest r 1000000 = v)
include hv

theorem dist_rounded : 2 * Nat.dist (v * 1000000) r ≤ 1000000 * ulp v := by
  rw [← hv]
  exact dist_nearest_le r (by omega)

include hr

/-- A rounded magnitude other than zero is not among the smallest ones. -/
theorem log2_rounded (hne : v ≠ 0) : 52 ≤ v.log2 := by
  have hr0 : r ≠ 0 := by
    rintro rfl
    exact hne (hv ▸ nearest_eq_zero (by omega))
  have hone : unitsPerOne ≤ r := Nat.le_of_dvd (Nat.pos_of_ne_zero hr0) hr
  have h20 : 1000000 ≤ twoPow 20 := by decide
  rw [le_log2_iff hne, ← hv]
  refine le_nearest (by omega) (ulp_twoPow 52) ?_
  calc twoPow 52 * 1000000 ≤ twoPow 52 * twoPow 20 := Nat.mul_le_mul_left _ h20
    _ = twoPow (52 + 20) := (twoPow_add 52 20).symm
    _ ≤ unitsPerOne := twoPow_le (by omega)
    _ ≤ r := hone

/-- Below `2 ^ 32` both roundings together go less than half a millionth. -/
theorem sixPlaces_of_small (hne : v ≠ 0) (h : v < twoPow 32 * unitsPerOne) : sixPlaces v = v := by
  have hround := dist_rounded hv
  have hup := dist_scaled v
  have hstep := ulp_mul_million_le hne
  have hpos := ulp_pos v
  have hulp : 2097152 * ulp v ≤ unitsPerOne := by
    have h21 : twoPow 21 = 2097152 := rfl
    have hlog : v.log2 < 32 + 1074 := by rwa [log2_lt_iff hne, ← twoPow_mul_unitsPerOne]
    have hle : ulp v ≤ twoPow 1053 := twoPow_le (by omega)
    rw [← h21, ← twoPow_mul_twoPow_eq_one (show 21 + 1053 = 1074 by omega)]
    exact Nat.mul_le_mul_left _ hle
  have hdist : 2 * Nat.dist (scaled v) r < unitsPerOne := by
    unfold Nat.dist at hround hup ⊢
    omega
  rw [sixPlaces, nearestWhole_of_dist_lt hr hdist, hv]

/-- From `2 ^ 52` millionths on, either moving up finds the whole number again, or moving down undoes it. -/
theorem sixPlaces_of_large (hrep : ulp r ∣ r) (hvrep : ulp v ∣ v) (hne : v ≠ 0)
    (h : twoPow 52 * unitsPerOne ≤ v * 1000000) : sixPlaces v = v := by
  have hround := dist_rounded hv
  have hlog := log2_rounded hr hv hne
  have hup := log2_mul_million hne
  have hpos := ulp_pos v
  rw [sixPlaces, nearestWhole_of_dvd (unitsPerOne_dvd_scaled_of_le h)]
  rcases Nat.lt_or_eq_of_le hup.2 with hlt | h20
  · have h19 := ulp_mul_million hlog (show (v * 1000000).log2 = v.log2 + 19 by omega)
    have hscaled := dist_scaled v
    rw [h19, twoPow_nineteen, Nat.dist_comm] at hscaled
    have hback : ScalesBack v := by
      unfold ScalesBack
      omega
    exact hback.nearest_scaled hvrep hne
  · have hscaled : scaled v = r := by
      refine nearest_one_eq hrep ?_
      rw [ulp_mul_million hlog h20, twoPow_twenty, Nat.dist_comm]
      omega
    rw [hscaled, hv]

end Again

/-! ## In between -/

/-- At least `2 ^ 32`, below `2 ^ 52` millionths, and more than a quarter but less than half of a millionth above a
whole number of millionths. -/
structure Restless (n : Nat) : Prop where
  low : twoPow 32 * unitsPerOne ≤ n
  high : n * 1000000 < twoPow 52 * unitsPerOne
  quarter : unitsPerOne < 4 * (n * 1000000 % unitsPerOne)
  half : 2 * (n * 1000000 % unitsPerOne) < unitsPerOne

instance (n : Nat) : Decidable (Restless n) :=
  decidable_of_iff
    (twoPow 32 * unitsPerOne ≤ n ∧ n * 1000000 < twoPow 52 * unitsPerOne ∧
      unitsPerOne < 4 * (n * 1000000 % unitsPerOne) ∧ 2 * (n * 1000000 % unitsPerOne) < unitsPerOne)
    ⟨fun h => ⟨h.1, h.2.1, h.2.2.1, h.2.2.2⟩, fun h => ⟨h.low, h.high, h.quarter, h.half⟩⟩

section Between

variable {v : Nat} (hlow : twoPow 32 * unitsPerOne ≤ v) (hhigh : v * 1000000 < twoPow 52 * unitsPerOne)
include hlow hhigh

/-- Six places up the spacing is one half. -/
theorem two_mul_ulp_mul_million : 2 * ulp (v * 1000000) = unitsPerOne := by
  have hlog : (v * 1000000).log2 = 51 + 1074 := by
    refine log2_eq_of_bounds ?_ ?_
    · rw [← twoPow_mul_unitsPerOne]
      have h51 : twoPow 51 ≤ twoPow 32 * 1000000 := by decide
      calc twoPow 51 * unitsPerOne ≤ twoPow 32 * 1000000 * unitsPerOne := Nat.mul_le_mul_right _ h51
        _ = twoPow 32 * unitsPerOne * 1000000 := Nat.mul_right_comm _ _ _
        _ ≤ v * 1000000 := Nat.mul_le_mul_right _ hlow
    · rwa [twoPow_mul_unitsPerOne] at hhigh
  have htwo : twoPow 1 = 2 := rfl
  rw [ulp, hlog, ← htwo]
  exact twoPow_mul_twoPow_eq_one rfl

/-- Rounding to six places goes less than half a millionth. -/
theorem million_ulp_lt : 1000000 * ulp v < unitsPerOne := by
  have hone := unitsPerOne_pos
  have hne : v ≠ 0 := by
    rintro rfl
    exact absurd hlow (Nat.not_le.mpr (Nat.mul_pos (twoPow_pos 32) hone))
  have hlog : v.log2 < 33 + 1074 := by
    rw [log2_lt_iff hne, ← twoPow_mul_unitsPerOne]
    have h52 : twoPow 52 ≤ twoPow 33 * 1000000 := by decide
    refine Nat.lt_of_mul_lt_mul_right (a := 1000000) (lt_of_lt_of_le hhigh ?_)
    rw [Nat.mul_right_comm]
    exact Nat.mul_le_mul_right _ h52
  have hle : ulp v ≤ twoPow 1054 := twoPow_le (by omega)
  have hpow := twoPow_mul_twoPow_eq_one (show 20 + 1054 = 1074 by omega)
  have hpos := twoPow_pos 1054
  rw [twoPow_twenty] at hpow
  omega

/-- Up to a quarter of a millionth the whole number below is found. -/
theorem nearestWhole_scaled_of_le (h : 4 * (v * 1000000 % unitsPerOne) ≤ unitsPerOne) :
    nearestWhole (scaled v) = v * 1000000 / unitsPerOne * unitsPerOne := by
  have hhalf := two_mul_ulp_mul_million hlow hhigh
  have hsplit : v * 1000000 =
      2 * (v * 1000000 / unitsPerOne) * ulp (v * 1000000) + v * 1000000 % unitsPerOne := by
    have hcomm : 2 * (v * 1000000 / unitsPerOne) * ulp (v * 1000000) =
        v * 1000000 / unitsPerOne * (2 * ulp (v * 1000000)) := by ring
    rw [hcomm, hhalf, Nat.div_add_mod']
  have hround := roundHalfEven_of_even (ulp_pos _) hsplit (by omega)
  have hscaled : scaled v = v * 1000000 / unitsPerOne * unitsPerOne := by
    have hunfold : scaled v = roundHalfEven (v * 1000000) (ulp (v * 1000000)) * ulp (v * 1000000) := by
      rw [scaled, nearest, Nat.one_mul, Nat.div_one]
    rw [hunfold, hround, ← hhalf]
    ring
  rw [hscaled]
  exact nearestWhole_of_dvd (Nat.dvd_mul_left _ _)

/-- Beyond a quarter of a millionth moving up makes a half at least, so the whole number above is found. -/
theorem nearestWhole_scaled_of_lt (h : unitsPerOne < 4 * (v * 1000000 % unitsPerOne)) :
    nearestWhole (scaled v) = (v * 1000000 / unitsPerOne + 1) * unitsPerOne := by
  have hhalf := two_mul_ulp_mul_million hlow hhigh
  have hdist := dist_scaled v
  have hsplit := Nat.div_add_mod' (v * 1000000) unitsPerOne
  have hrest := Nat.mod_lt (v * 1000000) unitsPerOne_pos
  have hbelow : ulp (v * 1000000) ∣ v * 1000000 / unitsPerOne * unitsPerOne := by
    rw [← hhalf, ← Nat.mul_assoc]
    exact Nat.dvd_mul_left _ _
  unfold Nat.dist at hdist
  have hover := add_le_of_dvd_of_lt hbelow (ulp_dvd_scaled v) (by omega)
  refine nearestWhole_eq ?_ ?_
  · rw [Nat.add_mul, Nat.one_mul]
    omega
  · rw [Nat.add_mul, Nat.one_mul]
    omega

variable {r : Nat} (hr : unitsPerOne ∣ r) (hv : nearest r 1000000 = v)
include hr hv

/-- Less than half of a millionth above a whole number, that number was rounded. -/
theorem eq_below_of_rounded (h : 2 * (v * 1000000 % unitsPerOne) < unitsPerOne) :
    r = v * 1000000 / unitsPerOne * unitsPerOne := by
  have hfine := million_ulp_lt hlow hhigh
  have hround := dist_rounded hv
  have hsplit := Nat.div_add_mod' (v * 1000000) unitsPerOne
  refine eq_of_dvd_of_dist_lt hr (Nat.dvd_mul_left _ _) ?_
  unfold Nat.dist at hround ⊢
  omega

/-- Otherwise the next one was. -/
theorem eq_above_of_rounded (h : unitsPerOne ≤ 2 * (v * 1000000 % unitsPerOne)) :
    r = (v * 1000000 / unitsPerOne + 1) * unitsPerOne := by
  have hfine := million_ulp_lt hlow hhigh
  have hround := dist_rounded hv
  have hsplit := Nat.div_add_mod' (v * 1000000) unitsPerOne
  have hrest := Nat.mod_lt (v * 1000000) unitsPerOne_pos
  refine eq_of_dvd_of_dist_lt hr (Nat.dvd_mul_left _ _) ?_
  rw [Nat.add_mul, Nat.one_mul]
  unfold Nat.dist at hround ⊢
  omega

omit hr hv in
/-- Below half of a millionth the next whole number is too far away to be rounded to the same magnitude. -/
theorem nearest_above_ne (h : 2 * (v * 1000000 % unitsPerOne) < unitsPerOne) :
    nearest ((v * 1000000 / unitsPerOne + 1) * unitsPerOne) 1000000 ≠ v := by
  intro heq
  have hfine := million_ulp_lt hlow hhigh
  have hsplit := Nat.div_add_mod' (v * 1000000) unitsPerOne
  have hfar := dist_rounded heq
  rw [Nat.add_mul, Nat.one_mul] at hfar
  unfold Nat.dist at hfar
  omega

/-- **In between** a rounded magnitude stays unless it is restless. -/
theorem sixPlaces_of_between : sixPlaces v = v ↔ ¬ Restless v := by
  rcases Nat.lt_or_ge unitsPerOne (4 * (v * 1000000 % unitsPerOne)) with hquarter | hquarter
  · rw [sixPlaces, nearestWhole_scaled_of_lt hlow hhigh hquarter]
    rcases Nat.lt_or_ge (2 * (v * 1000000 % unitsPerOne)) unitsPerOne with hhalf | hhalf
    · exact iff_of_false (nearest_above_ne hlow hhigh hhalf) (not_not_intro ⟨hlow, hhigh, hquarter, hhalf⟩)
    · rw [← eq_above_of_rounded hlow hhigh hr hv hhalf]
      exact iff_of_true hv fun hrestless => absurd hrestless.half (Nat.not_lt.mpr hhalf)
  · have hhalf : 2 * (v * 1000000 % unitsPerOne) < unitsPerOne := by
      have hpos := unitsPerOne_pos
      omega
    rw [sixPlaces, nearestWhole_scaled_of_le hlow hhigh hquarter, ← eq_below_of_rounded hlow hhigh hr hv hhalf]
    exact iff_of_true hv fun hrestless => absurd hrestless.quarter (Nat.not_lt.mpr hquarter)

end Between

/-! ## All rounded magnitudes -/

/-- **Rounding again**: a rounded magnitude stays exactly if it is not restless. -/
theorem sixPlaces_eq_self_iff {r v : Nat} (hr : unitsPerOne ∣ r) (hrep : ulp r ∣ r) (hv : nearest r 1000000 = v) :
    sixPlaces v = v ↔ ¬ Restless v := by
  rcases Nat.lt_or_ge v (twoPow 32 * unitsPerOne) with hsmall | hlow
  · refine iff_of_true ?_ fun hrestless => absurd hsmall (Nat.not_lt.mpr hrestless.low)
    by_cases hne : v = 0
    · rw [hne, sixPlaces_zero]
    · exact sixPlaces_of_small hr hv hne hsmall
  · have hne : v ≠ 0 := Nat.ne_of_gt (lt_of_lt_of_le (Nat.mul_pos (twoPow_pos 32) unitsPerOne_pos) hlow)
    rcases Nat.lt_or_ge (v * 1000000) (twoPow 52 * unitsPerOne) with hhigh | hlarge
    · exact sixPlaces_of_between hlow hhigh hr hv
    · refine iff_of_true ?_ fun hrestless => absurd hrestless.high (Nat.not_lt.mpr hlarge)
      exact sixPlaces_of_large hr hv hrep (hv ▸ ulp_nearest_dvd r 1000000) hne hlarge

/-- A restless magnitude can be moved up. -/
theorem Restless.scaled_lt {n : Nat} (h : Restless n) : scaled n < unitsLimit := by
  have hhigh := h.high
  rw [twoPow_mul_unitsPerOne] at hhigh
  exact Keypad.scaled_lt (by omega) (Nat.le_of_lt hhigh)

namespace Binary64

/-- A finite number with a restless magnitude. -/
def IsRestless : Binary64 → Prop
  | finite _ n _ => Restless n
  | _ => False

instance : DecidablePred IsRestless
  | nan => inferInstanceAs (Decidable False)
  | infinite _ => inferInstanceAs (Decidable False)
  | finite _ n _ => inferInstanceAs (Decidable (Restless n))

/-- **Rounded numbers** are rounded to themselves exactly if they are not restless. -/
theorem roundTo_roundTo_iff {x : Binary64} (hx : x.isFinite) :
    roundTo (roundTo x resultPlaces) resultPlaces = roundTo x resultPlaces ↔ ¬ (roundTo x resultPlaces).IsRestless := by
  have hsign := (isFinite_roundTo hx).2
  obtain ⟨s, n, hn, rfl⟩ := isFinite_iff.mp hx
  by_cases h : scaled n < unitsLimit
  · have hiff := sixPlaces_eq_self_iff (r := nearestWhole (scaled n)) (Nat.dvd_mul_left _ _)
      (representable_nearestWhole h).2 rfl
    rw [roundTo_finite_of_lt h] at hsign ⊢
    by_cases hzero : sixPlaces n = 0
    · rw [if_pos hzero]
      decide +kernel
    · rw [if_neg hzero] at hsign ⊢
      rw [roundTo_eq_self_iff hsign]
      constructor
      · exact fun heq hrestless => hiff.mp (heq hrestless.scaled_lt) hrestless
      · exact fun hcalm _ => hiff.mpr hcalm
  · have hsame : roundTo (finite s n hn) resultPlaces = finite s n hn := roundTo_finite_of_le (Nat.not_lt.mp h)
    rw [hsame]
    exact iff_of_true hsame fun hrestless => h (Restless.scaled_lt hrestless)

end Binary64

end Keypad
