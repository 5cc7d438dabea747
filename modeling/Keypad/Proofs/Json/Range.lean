import Keypad.Json.Basic
import Keypad.Proofs.Decimal.Carried

/-!
# Keypad.Proofs.Json.Range — which numbers have a value in binary floating point

A number is converted by taking its first digits, as many as fit 64 bits, and scaling them by a power of ten.  That is
close to the number as it is written, so how each step rounds only counts for numbers next to the end of the finite
range.

* `coefficient`, `decimalExponent`, `Reaches`: the magnitude of a number as it is written.
* `IsCut`, `takeWhole_spec`, `takeFraction_spec`: the digits that are taken, and what is left out.
* `scientific_close`: the significand with its exponent is close to the number.
* `nearest_units_close`: the rounding of a factor.
* `scale?_isSome_of_neg`, `scale?_isSome_of_large`, `scale?_isSome_iff`: which scalings give a result.
* `toBinary64?_isSome`, `toBinary64?_eq_none`: there is a value below `safeLimit`, and none from `excessLimit` on.
-/

namespace Keypad.Json.Number

open Decimal Binary64

/-! ## The exact value -/

/-- The digits of a number as a whole number. -/
def coefficient (n : Number) : Nat := Nat.ofDigitChars 10 (n.whole ++ n.fraction) 0

/-- The power of ten that the coefficient is multiplied by. -/
def decimalExponent (n : Number) : Int := n.exponent.getD 0 - n.fraction.length

/-- The magnitude of a number, exactly as it is written, is at least `k`. -/
def Reaches (n : Number) (k : Nat) : Prop :=
  k * tenPow (-n.decimalExponent).toNat ≤ n.coefficient * tenPow n.decimalExponent.toNat

/-! ## The significand -/

/-- The first digits of a value, `cut` further ones being left out; if there are any, many digits are left. -/
structure IsCut (value s cut : Nat) : Prop where
  le : s * tenPow cut ≤ value
  lt : value < (s + 1) * tenPow cut
  large : cut ≠ 0 → twoPow 60 ≤ s

theorem IsCut.all (value : Nat) : IsCut value value 0 :=
  ⟨by rw [tenPow_zero, Nat.mul_one], by rw [tenPow_zero, Nat.mul_one]; exact Nat.lt_succ_self value,
    fun h => absurd rfl h⟩

theorem IsCut.eq {value s : Nat} (h : IsCut value s 0) : value = s := by
  have hle := h.le
  have hlt := h.lt
  rw [tenPow_zero, Nat.mul_one] at hle hlt
  omega

theorem digit_le {d : Char} (h : d.isDigit) : d.toNat - '0'.toNat ≤ 9 := by
  have hle : d.toNat ≤ 57 := (Char.isDigit_iff_toNat.mp h).2
  have hzero : '0'.toNat = 48 := rfl
  omega

theorem extend?_eq_some {s t : Nat} {d : Char} (h : extend? s d = some t) :
    t = 10 * s + (d.toNat - '0'.toNat) ∧ t < significandLimit := by
  unfold extend? at h
  dsimp only at h
  split at h
  · obtain rfl := Option.some.inj h
    exact ⟨rfl, ‹_›⟩
  · cases h

theorem extend?_eq_none {s : Nat} {d : Char} (h : extend? s d = none) :
    significandLimit ≤ 10 * s + (d.toNat - '0'.toNat) := by
  unfold extend? at h
  dsimp only at h
  split at h
  · cases h
  · exact Nat.le_of_not_lt ‹_›

/-- Digits that follow a number shift it to the left and fill the places. -/
theorem ofDigitChars_bounds {digits : List Char} (h : Digits digits) (m : Nat) :
    m * tenPow digits.length ≤ Nat.ofDigitChars 10 digits m ∧
      Nat.ofDigitChars 10 digits m < (m + 1) * tenPow digits.length := by
  have hvalue : Nat.ofDigitChars 10 digits m = m * tenPow digits.length + Nat.ofDigitChars 10 digits 0 := by
    rw [Nat.ofDigitChars_eq_ofDigitChars_zero, Nat.mul_comm]
    rfl
  have hlt := ofDigitChars_lt h
  rw [hvalue, Nat.add_mul, Nat.one_mul]
  omega

/-- Digits that follow a significand which has no room for the first of them. -/
theorem isCut_of_full {s : Nat} {d : Char} {rest : List Char} (hdigits : Digits (d :: rest))
    (h : extend? s d = none) : IsCut (Nat.ofDigitChars 10 (d :: rest) s) s (rest.length + 1) := by
  obtain ⟨hle, hlt⟩ := ofDigitChars_bounds hdigits s
  have hfull := extend?_eq_none h
  have hlimit : significandLimit = 18446744073709551616 := rfl
  have hsixty : twoPow 60 = 1152921504606846976 := rfl
  have hdigit := digit_le (digits_cons.mp hdigits).1
  exact ⟨hle, hlt, fun _ => by omega⟩

theorem takeWhole_spec {digits : List Char} (hdigits : Digits digits) {s : Nat} (hs : s < significandLimit) :
    (takeWhole s digits).1 < significandLimit ∧
      IsCut (Nat.ofDigitChars 10 digits s) (takeWhole s digits).1 (takeWhole s digits).2 := by
  induction digits generalizing s with
  | nil =>
    rw [takeWhole]
    exact ⟨hs, .all s⟩
  | cons d rest ih =>
    rw [takeWhole]
    split
    · rename_i extended h
      obtain ⟨rfl, hlt⟩ := extend?_eq_some h
      exact ih (digits_cons.mp hdigits).2 hlt
    · rename_i h
      exact ⟨hs, isCut_of_full hdigits h⟩

theorem takeFraction_spec {digits : List Char} (hdigits : Digits digits) {s taken : Nat} (hs : s < significandLimit) :
    (takeFraction s taken digits).1 < significandLimit ∧ ∃ cut,
      (takeFraction s taken digits).2 + cut = taken + digits.length ∧
        IsCut (Nat.ofDigitChars 10 digits s) (takeFraction s taken digits).1 cut := by
  induction digits generalizing s taken with
  | nil =>
    rw [takeFraction]
    exact ⟨hs, 0, rfl, .all s⟩
  | cons d rest ih =>
    rw [takeFraction]
    split
    · rename_i extended h
      obtain ⟨rfl, hlt⟩ := extend?_eq_some h
      obtain ⟨hlimit, cut, hcut, hspec⟩ := @ih (digits_cons.mp hdigits).2 _ (taken + 1) hlt
      refine ⟨hlimit, cut, ?_, hspec⟩
      rw [hcut, List.length_cons]
      omega
    · rename_i h
      exact ⟨hs, rest.length + 1, rfl, isCut_of_full hdigits h⟩

/-- Two numbers with the same leading digits are close to one another if these are many. -/
theorem close_of_leading {x y s p : Nat} (hs : twoPow 60 ≤ s) (hx : x ≤ (s + 1) * p) (hy : s * p ≤ y) :
    twoPow 60 * x ≤ (twoPow 60 + 1) * y :=
  calc twoPow 60 * x ≤ twoPow 60 * ((s + 1) * p) := Nat.mul_le_mul_left _ hx
    _ = twoPow 60 * (s * p) + twoPow 60 * p := by ring
    _ ≤ twoPow 60 * (s * p) + s * p := Nat.add_le_add_left (Nat.mul_le_mul_right p hs) _
    _ = (twoPow 60 + 1) * (s * p) := by ring
    _ ≤ (twoPow 60 + 1) * y := Nat.mul_le_mul_left _ hy

/-- The digits that were taken first stay in front when more digits follow the value. -/
theorem IsCut.append {value w dropped : Nat} (h : IsCut value w dropped) {digits : List Char}
    (hdigits : Digits digits) :
    w * (tenPow dropped * tenPow digits.length) ≤ Nat.ofDigitChars 10 digits value ∧
      Nat.ofDigitChars 10 digits value ≤ (w + 1) * (tenPow dropped * tenPow digits.length) := by
  obtain ⟨hle, hlt⟩ := ofDigitChars_bounds hdigits value
  rw [← Nat.mul_assoc, ← Nat.mul_assoc]
  exact ⟨le_trans (Nat.mul_le_mul_right _ h.le) hle,
    le_trans (Nat.le_of_lt hlt) (Nat.mul_le_mul_right _ (Nat.succ_le_of_lt h.lt))⟩

/-- They stay in front as well when only some of these digits are taken. -/
theorem IsCut.extend {w s t left : Nat} {digits : List Char} (h : IsCut (Nat.ofDigitChars 10 digits w) s left)
    (hdigits : Digits digits) (hlength : t + left = digits.length) :
    w * tenPow digits.length ≤ s * tenPow left ∧ s * tenPow left ≤ (w + 1) * tenPow digits.length := by
  obtain ⟨hle, hlt⟩ := ofDigitChars_bounds hdigits w
  refine ⟨?_, le_trans h.le (Nat.le_of_lt hlt)⟩
  have htaken := lt_of_le_of_lt hle h.lt
  rw [← hlength, tenPow_add, ← Nat.mul_assoc] at htaken ⊢
  exact Nat.mul_le_mul_right _ (Nat.le_of_lt_succ (Nat.lt_of_mul_lt_mul_right htaken))

/-- The significand with its exponent is close to the number. -/
theorem scientific_close {n : Number} (hwhole : Digits n.whole) (hfraction : Digits n.fraction) :
    n.scientific.1 < significandLimit ∧ ∃ cut : Nat, n.scientific.2 = n.decimalExponent + cut ∧
      twoPow 60 * n.coefficient ≤ (twoPow 60 + 1) * (n.scientific.1 * tenPow cut) ∧
      twoPow 60 * (n.scientific.1 * tenPow cut) ≤ (twoPow 60 + 1) * n.coefficient := by
  obtain ⟨hlimit, hcut⟩ := @takeWhole_spec _ hwhole 0 (twoPow_pos 64)
  obtain ⟨hslimit, left, hleft, hleftcut⟩ := @takeFraction_spec _ hfraction _ 0 hlimit
  have hpair : n.scientific = ((takeFraction (takeWhole 0 n.whole).1 0 n.fraction).1,
      ((takeWhole 0 n.whole).2 : Int) - (takeFraction (takeWhole 0 n.whole).1 0 n.fraction).2 +
        n.exponent.getD 0) := rfl
  have hvalue : n.coefficient = Nat.ofDigitChars 10 n.fraction (Nat.ofDigitChars 10 n.whole 0) :=
    Nat.ofDigitChars_append 0
  generalize takeWhole 0 n.whole = leading at *
  obtain ⟨w, dropped⟩ := leading
  generalize takeFraction w 0 n.fraction = taken at *
  obtain ⟨s, t⟩ := taken
  rw [Nat.zero_add] at hleft
  rw [hpair, hvalue]
  refine ⟨hslimit, dropped + left, ?_, ?_⟩
  · rw [decimalExponent]
    push_cast
    omega
  rcases Nat.eq_zero_or_pos dropped with rfl | hpos
  · -- only digits behind the point were left out, if any
    rw [hcut.eq, Nat.zero_add]
    rcases Nat.eq_zero_or_pos left with rfl | hleftpos
    · rw [hleftcut.eq, tenPow_zero, Nat.mul_one]
      exact ⟨Nat.mul_le_mul_right _ (Nat.le_succ _), Nat.mul_le_mul_right _ (Nat.le_succ _)⟩
    · have hlarge := hleftcut.large (Nat.ne_of_gt hleftpos)
      exact ⟨close_of_leading hlarge (Nat.le_of_lt hleftcut.lt) le_rfl,
        close_of_leading hlarge (Nat.mul_le_mul_right _ (Nat.le_succ s)) hleftcut.le⟩
  · -- both have the digits of `w` in front
    have hlarge := hcut.large (Nat.ne_of_gt hpos)
    obtain ⟨hlow, hhigh⟩ := hcut.append hfraction
    obtain ⟨hslow, hshigh⟩ := hleftcut.extend hfraction hleft
    have hscaled : w * (tenPow dropped * tenPow n.fraction.length) ≤ s * tenPow (dropped + left) ∧
        s * tenPow (dropped + left) ≤ (w + 1) * (tenPow dropped * tenPow n.fraction.length) := by
      rw [tenPow_add, Nat.mul_left_comm s, Nat.mul_left_comm w, Nat.mul_left_comm (w + 1)]
      exact ⟨Nat.mul_le_mul_left _ hslow, Nat.mul_le_mul_left _ hshigh⟩
    exact ⟨close_of_leading hlarge hhigh hscaled.1, close_of_leading hlarge hscaled.2 hlow⟩

/-! ## The factors -/

theorem twoPow_mul_ulp_le {m : Nat} (hne : m ≠ 0) (h : 52 ≤ m.log2) : twoPow 52 * ulp m ≤ m := by
  rw [ulp, ← twoPow_add, Nat.add_sub_cancel' h]
  exact Nat.log2_self_le hne

/-- A whole number that is rounded changes by a part in `2 ^ 53` at most. -/
theorem nearest_units_close (k : Nat) :
    twoPow 53 * nearest (k * unitsPerOne) 1 ≤ (twoPow 53 + 1) * (k * unitsPerOne) ∧
      (twoPow 53 - 1) * (k * unitsPerOne) ≤ twoPow 53 * nearest (k * unitsPerOne) 1 := by
  rcases Nat.eq_zero_or_pos k with rfl | hpos
  · rw [Nat.zero_mul, nearest_eq_zero (by omega)]
    exact ⟨le_rfl, le_rfl⟩
  · have hunits : unitsPerOne ≤ k * unitsPerOne := Nat.le_mul_of_pos_left _ hpos
    have hne : k * unitsPerOne ≠ 0 := Nat.ne_of_gt (Nat.mul_pos hpos unitsPerOne_pos)
    have hlog : 52 ≤ (k * unitsPerOne).log2 := (le_log2_iff hne).mpr (le_trans (twoPow_le (by omega)) hunits)
    have hulp := twoPow_mul_ulp_le hne hlog
    have hdist := dist_nearest (k * unitsPerOne) Nat.one_pos
    rw [Nat.mul_one, Nat.one_mul, Nat.div_one] at hdist
    have hclose : twoPow 53 * Nat.dist (nearest (k * unitsPerOne) 1) (k * unitsPerOne) ≤ k * unitsPerOne :=
      calc twoPow 53 * Nat.dist (nearest (k * unitsPerOne) 1) (k * unitsPerOne)
          = twoPow 52 * (2 * Nat.dist (nearest (k * unitsPerOne) 1) (k * unitsPerOne)) := by
            rw [twoPow_succ]; ring
        _ ≤ twoPow 52 * ulp (k * unitsPerOne) := Nat.mul_le_mul_left _ hdist
        _ ≤ k * unitsPerOne := hulp
    have hpow : twoPow 53 = 9007199254740992 := rfl
    rw [hpow] at hclose ⊢
    unfold Nat.dist at hclose
    omega

theorem ofNat_eq_finite {k : Nat} (h : nearest (k * unitsPerOne) 1 < unitsLimit) :
    ofNat k = finite false (nearest (k * unitsPerOne) 1) (representable_nearest h) := by
  rw [ofNat, ofUnits, ofRatio, dif_pos h]

theorem nearest_significand_lt {s : Nat} (h : s < significandLimit) : nearest (s * unitsPerOne) 1 < unitsLimit := by
  have hle : nearest (s * unitsPerOne) 1 ≤ twoPow 1138 := by
    refine nearest_le Nat.one_pos (ulp_twoPow 1138) ?_
    rw [Nat.mul_one, ← twoPow_mul_unitsPerOne 64]
    exact Nat.mul_le_mul_right _ (Nat.le_of_lt h)
  exact lt_of_le_of_lt hle (twoPow_lt (by omega))

theorem nearest_powerOfTen_lt {k : Nat} (h : k ≤ scaleStep) : nearest (tenPow k * unitsPerOne) 1 < unitsLimit := by
  have hgreatest : nearest (tenPow scaleStep * unitsPerOne) 1 < unitsLimit := by decide +kernel
  refine lt_of_le_of_lt (nearest_mono Nat.one_pos Nat.one_pos ?_) hgreatest
  exact Nat.mul_le_mul_right _ (Nat.mul_le_mul_right _ (tenPow_le h))

theorem isZero_ofNat {k : Nat} (h : nearest (k * unitsPerOne) 1 < unitsLimit) : (ofNat k).isZero ↔ k = 0 := by
  rw [ofNat_eq_finite h, isZero_finite]
  constructor
  · intro hzero
    by_contra hne
    have hle : unitsPerOne ≤ nearest (k * unitsPerOne) 1 := by
      refine le_nearest Nat.one_pos (ulp_twoPow 1074) ?_
      rw [Nat.mul_one]
      exact Nat.le_mul_of_pos_left _ (Nat.pos_of_ne_zero hne)
    exact absurd unitsPerOne_pos (by omega)
  · rintro rfl
    rw [Nat.zero_mul]
    exact nearest_eq_zero (by omega)

/-! ## Scaling -/

variable {value : Binary64} {e : Int} {s k : Nat}

/-- Division does not fail. -/
theorem scale?_isSome_of_neg (h : e < 0) : (scale? value e).isSome := by
  induction value, e using scale?.induct with
  | case1 _ _ _ hpos => omega
  | case2 _ _ _ hpos => omega
  | case3 value e hstep hneg =>
    rw [scale?, if_pos hstep, if_neg hneg]
    rfl
  | case4 value e hstep hzero =>
    rw [scale?, if_neg hstep, if_pos hzero]
    rfl
  | case5 _ _ _ _ hpos => omega
  | case6 value e hstep hzero hneg ih =>
    rw [scale?, if_neg hstep, if_neg hzero, if_neg hneg]
    refine ih ?_
    simp only [scaleStep] at *
    omega

theorem scale?_isSome_of_large (h : (scaleStep : Int) < e) : (scale? value e).isSome ↔ value.isZero := by
  rw [scale?, if_neg (by omega)]
  by_cases hzero : value.isZero
  · rw [if_pos hzero]
    exact iff_of_true rfl hzero
  · rw [if_neg hzero, if_pos (by omega)]
    exact iff_of_false nofun hzero

/-- A product fails if it is beyond the finite range. -/
theorem scale?_isSome_iff (hs : s < significandLimit) (hk : k ≤ scaleStep) :
    (scale? (ofNat s) k).isSome ↔
      nearest (nearest (s * unitsPerOne) 1 * nearest (tenPow k * unitsPerOne) 1) unitsPerOne < unitsLimit := by
  rw [scale?, if_pos (by omega), if_pos (by omega), Int.natAbs_natCast, powerOfTen,
    ofNat_eq_finite (nearest_significand_lt hs), ofNat_eq_finite (nearest_powerOfTen_lt hk), finite_mul_finite,
    ← @isFinite_ofRatio (false ^^ false)]
  dsimp only
  split
  · exact iff_of_true rfl ‹_›
  · exact iff_of_false nofun ‹_›

/-! ## The range -/

variable {n : Number}

/-- A part in `2 ^ 51` below `2 ^ 1024`, where the finite range ends. -/
def safeLimit : Nat := (twoPow 51 - 1) * twoPow 973

/-- A part in `2 ^ 51` above `2 ^ 1024`. -/
def excessLimit : Nat := (twoPow 51 + 1) * twoPow 973

theorem isSome_toBinary64? : n.toBinary64?.isSome ↔ (scale? (ofNat n.scientific.1) n.scientific.2).isSome := by
  unfold toBinary64?
  rw [Option.isSome_map]

/-- The exponent of the significand differs by the digits that were left out. -/
theorem tenPow_mul_tenPow {E : Int} {k cut : Nat} (h : (k : Int) = E + cut) :
    tenPow k * tenPow (-E).toNat = tenPow cut * tenPow E.toNat := by
  rw [← tenPow_add, ← tenPow_add]
  congr 1
  omega

theorem scaled_le_of_not_reaches (hwhole : Digits n.whole) (hfraction : Digits n.fraction)
    (hk : n.scientific.2 = k) {limit : Nat} (h : ¬ n.Reaches limit) :
    twoPow 60 * (n.scientific.1 * tenPow k) ≤ (twoPow 60 + 1) * limit := by
  obtain ⟨-, cut, hcut, -, hclose⟩ := scientific_close hwhole hfraction
  have hscale := tenPow_mul_tenPow (hk.symm.trans hcut)
  refine Nat.le_of_mul_le_mul_right ?_ (tenPow_pos (-n.decimalExponent).toNat)
  calc twoPow 60 * (n.scientific.1 * tenPow k) * tenPow (-n.decimalExponent).toNat
      = twoPow 60 * (n.scientific.1 * tenPow cut) * tenPow n.decimalExponent.toNat := by
        rw [Nat.mul_assoc _ (_ * tenPow k), Nat.mul_assoc _ (tenPow k), hscale]; ring
    _ ≤ (twoPow 60 + 1) * n.coefficient * tenPow n.decimalExponent.toNat := Nat.mul_le_mul_right _ hclose
    _ = (twoPow 60 + 1) * (n.coefficient * tenPow n.decimalExponent.toNat) := Nat.mul_assoc _ _ _
    _ ≤ (twoPow 60 + 1) * (limit * tenPow (-n.decimalExponent).toNat) :=
        Nat.mul_le_mul_left _ (Nat.le_of_lt (Nat.lt_of_not_le h))
    _ = (twoPow 60 + 1) * limit * tenPow (-n.decimalExponent).toNat := (Nat.mul_assoc _ _ _).symm

theorem le_scaled_of_reaches (hwhole : Digits n.whole) (hfraction : Digits n.fraction)
    (hk : n.scientific.2 = k) {limit : Nat} (h : n.Reaches limit) :
    twoPow 60 * limit ≤ (twoPow 60 + 1) * (n.scientific.1 * tenPow k) := by
  obtain ⟨-, cut, hcut, hclose, -⟩ := scientific_close hwhole hfraction
  have hscale := tenPow_mul_tenPow (hk.symm.trans hcut)
  refine Nat.le_of_mul_le_mul_right ?_ (tenPow_pos (-n.decimalExponent).toNat)
  calc twoPow 60 * limit * tenPow (-n.decimalExponent).toNat
      = twoPow 60 * (limit * tenPow (-n.decimalExponent).toNat) := Nat.mul_assoc _ _ _
    _ ≤ twoPow 60 * (n.coefficient * tenPow n.decimalExponent.toNat) := Nat.mul_le_mul_left _ h
    _ = twoPow 60 * n.coefficient * tenPow n.decimalExponent.toNat := (Nat.mul_assoc _ _ _).symm
    _ ≤ (twoPow 60 + 1) * (n.scientific.1 * tenPow cut) * tenPow n.decimalExponent.toNat :=
        Nat.mul_le_mul_right _ hclose
    _ = (twoPow 60 + 1) * (n.scientific.1 * tenPow k) * tenPow (-n.decimalExponent).toNat := by
        rw [Nat.mul_assoc _ (_ * tenPow k), Nat.mul_assoc _ (tenPow k), hscale]; ring

/-- The greatest finite number, in units. -/
def greatest : Nat := (twoPow 53 - 1) * twoPow 2045

theorem representable_greatest : Representable greatest := by decide +kernel

/-- Three roundings do not lead out of the finite range. -/
theorem nearest_product_lt (h : twoPow 60 * (s * tenPow k) ≤ (twoPow 60 + 1) * safeLimit) :
    nearest (nearest (s * unitsPerOne) 1 * nearest (tenPow k * unitsPerOne) 1) unitsPerOne < unitsLimit := by
  obtain ⟨ha, -⟩ := nearest_units_close s
  obtain ⟨hb, -⟩ := nearest_units_close (tenPow k)
  generalize nearest (s * unitsPerOne) 1 = a at *
  generalize nearest (tenPow k * unitsPerOne) 1 = b at *
  refine lt_of_le_of_lt (nearest_le unitsPerOne_pos representable_greatest.2 ?_) representable_greatest.lt
  have hnumbers : (twoPow 53 + 1) * (twoPow 53 + 1) * ((twoPow 60 + 1) * safeLimit) * unitsPerOne ≤
      twoPow 53 * twoPow 53 * twoPow 60 * greatest := by decide +kernel
  refine Nat.le_of_mul_le_mul_left ?_ (show 0 < twoPow 53 * twoPow 53 * twoPow 60 by decide)
  calc twoPow 53 * twoPow 53 * twoPow 60 * (a * b) = twoPow 53 * a * (twoPow 53 * b) * twoPow 60 := by ring
    _ ≤ (twoPow 53 + 1) * (s * unitsPerOne) * ((twoPow 53 + 1) * (tenPow k * unitsPerOne)) * twoPow 60 :=
        Nat.mul_le_mul_right _ (Nat.mul_le_mul ha hb)
    _ = (twoPow 53 + 1) * (twoPow 53 + 1) * (twoPow 60 * (s * tenPow k)) * unitsPerOne * unitsPerOne := by ring
    _ ≤ (twoPow 53 + 1) * (twoPow 53 + 1) * ((twoPow 60 + 1) * safeLimit) * unitsPerOne * unitsPerOne :=
        Nat.mul_le_mul_right _ (Nat.mul_le_mul_right _ (Nat.mul_le_mul_left _ h))
    _ ≤ twoPow 53 * twoPow 53 * twoPow 60 * greatest * unitsPerOne := Nat.mul_le_mul_right _ hnumbers
    _ = twoPow 53 * twoPow 53 * twoPow 60 * (greatest * unitsPerOne) := Nat.mul_assoc _ _ _

/-- Three roundings do not lead back into the finite range. -/
theorem limit_le_nearest_product (h : twoPow 60 * excessLimit ≤ (twoPow 60 + 1) * (s * tenPow k)) :
    unitsLimit ≤ nearest (nearest (s * unitsPerOne) 1 * nearest (tenPow k * unitsPerOne) 1) unitsPerOne := by
  obtain ⟨-, ha⟩ := nearest_units_close s
  obtain ⟨-, hb⟩ := nearest_units_close (tenPow k)
  generalize nearest (s * unitsPerOne) 1 = a at *
  generalize nearest (tenPow k * unitsPerOne) 1 = b at *
  refine le_nearest unitsPerOne_pos ulp_unitsLimit ?_
  have hnumbers : twoPow 53 * twoPow 53 * (twoPow 60 + 1) * unitsLimit ≤
      (twoPow 53 - 1) * (twoPow 53 - 1) * (twoPow 60 * excessLimit) * unitsPerOne := by decide +kernel
  refine Nat.le_of_mul_le_mul_left ?_ (show 0 < twoPow 53 * twoPow 53 * (twoPow 60 + 1) by decide)
  calc twoPow 53 * twoPow 53 * (twoPow 60 + 1) * (unitsLimit * unitsPerOne)
      = twoPow 53 * twoPow 53 * (twoPow 60 + 1) * unitsLimit * unitsPerOne := (Nat.mul_assoc _ _ _).symm
    _ ≤ (twoPow 53 - 1) * (twoPow 53 - 1) * (twoPow 60 * excessLimit) * unitsPerOne * unitsPerOne :=
        Nat.mul_le_mul_right _ hnumbers
    _ ≤ (twoPow 53 - 1) * (twoPow 53 - 1) * ((twoPow 60 + 1) * (s * tenPow k)) * unitsPerOne * unitsPerOne :=
        Nat.mul_le_mul_right _ (Nat.mul_le_mul_right _ (Nat.mul_le_mul_left _ h))
    _ = (twoPow 53 - 1) * (s * unitsPerOne) * ((twoPow 53 - 1) * (tenPow k * unitsPerOne)) * (twoPow 60 + 1) := by ring
    _ ≤ twoPow 53 * a * (twoPow 53 * b) * (twoPow 60 + 1) := Nat.mul_le_mul_right _ (Nat.mul_le_mul ha hb)
    _ = twoPow 53 * twoPow 53 * (twoPow 60 + 1) * (a * b) := by ring

/-- A number of a safe magnitude has a value. -/
theorem toBinary64?_isSome (hwhole : Digits n.whole) (hfraction : Digits n.fraction) (h : ¬ n.Reaches safeLimit) :
    n.toBinary64?.isSome := by
  obtain ⟨hs, -⟩ := scientific_close hwhole hfraction
  rw [isSome_toBinary64?]
  rcases lt_or_ge n.scientific.2 0 with hneg | hpos
  · exact scale?_isSome_of_neg hneg
  obtain ⟨k, hk⟩ := Int.eq_ofNat_of_zero_le hpos
  have hscaled := scaled_le_of_not_reaches hwhole hfraction hk h
  rw [hk]
  rcases le_or_gt k scaleStep with hle | hgt
  · exact (scale?_isSome_iff hs hle).mpr (nearest_product_lt hscaled)
  · rw [scale?_isSome_of_large (by omega), isZero_ofNat (nearest_significand_lt hs)]
    by_contra hne
    have hpower : twoPow 60 * tenPow (scaleStep + 1) ≤ twoPow 60 * (n.scientific.1 * tenPow k) :=
      Nat.mul_le_mul_left _ (le_trans (tenPow_le hgt) (Nat.le_mul_of_pos_left _ (Nat.pos_of_ne_zero hne)))
    have hnumbers : (twoPow 60 + 1) * safeLimit < twoPow 60 * tenPow (scaleStep + 1) := by decide +kernel
    exact absurd (le_trans hpower hscaled) (Nat.not_le.mpr hnumbers)

/-- A number that exceeds the finite range has none. -/
theorem toBinary64?_eq_none (hwhole : Digits n.whole) (hfraction : Digits n.fraction) (h : n.Reaches excessLimit) :
    n.toBinary64? = none := by
  obtain ⟨hs, cut, hcut, hclose, -⟩ := scientific_close hwhole hfraction
  rw [← Option.not_isSome_iff_eq_none, isSome_toBinary64?]
  rcases lt_or_ge n.scientific.2 0 with hneg | hpos
  · intro _
    -- the magnitude is below the bound on significands
    have hsmall : twoPow 60 * n.coefficient ≤
        (twoPow 60 + 1) * significandLimit * tenPow (-n.decimalExponent).toNat :=
      calc twoPow 60 * n.coefficient ≤ (twoPow 60 + 1) * (n.scientific.1 * tenPow cut) := hclose
        _ ≤ (twoPow 60 + 1) * (significandLimit * tenPow (-n.decimalExponent).toNat) :=
            Nat.mul_le_mul_left _ (Nat.mul_le_mul (Nat.le_of_lt hs) (tenPow_le (by omega)))
        _ = _ := (Nat.mul_assoc _ _ _).symm
    have hlarge : twoPow 60 * excessLimit * tenPow (-n.decimalExponent).toNat ≤ twoPow 60 * n.coefficient := by
      have hzero : n.decimalExponent.toNat = 0 := by omega
      rw [Reaches, hzero, tenPow_zero, Nat.mul_one] at h
      rw [Nat.mul_assoc]
      exact Nat.mul_le_mul_left _ h
    have hle := Nat.le_of_mul_le_mul_right (le_trans hlarge hsmall) (tenPow_pos _)
    exact absurd hle (by decide +kernel)
  · obtain ⟨k, hk⟩ := Int.eq_ofNat_of_zero_le hpos
    have hscaled := le_scaled_of_reaches hwhole hfraction hk h
    rw [hk]
    rcases le_or_gt k scaleStep with hle | hgt
    · rw [scale?_isSome_iff hs hle]
      exact Nat.not_lt.mpr (limit_le_nearest_product hscaled)
    · rw [scale?_isSome_of_large (by omega), isZero_ofNat (nearest_significand_lt hs)]
      intro hzero
      rw [hzero, Nat.zero_mul, Nat.mul_zero] at hscaled
      exact absurd hscaled (by decide +kernel)

end Keypad.Json.Number
