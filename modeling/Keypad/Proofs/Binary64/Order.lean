import Keypad.Proofs.Binary64.SixPlaces

/-!
# Keypad.Proofs.Binary64.Order — rounding to six places keeps order and sign

Rounding acts on magnitudes.  One that can be moved up by six places makes the three steps, and any other stays.

* `sixPlaces_mono`: each of the three steps keeps the order.
* `sixPlaces_le_of_limit_le`: where they end nothing is rounded beyond what follows.
* `roundUnits`, `units?_roundTo`: the magnitude of a rounded number; its sign is that of the number.
* `roundTo_mono`: so rounding keeps the order of all finite numbers, and commutes with the sign.
-/

namespace Keypad

open Binary64

/-! ## Magnitudes -/

variable {m n : Nat}

theorem scaled_mono (h : m ≤ n) : scaled m ≤ scaled n :=
  nearest_mono Nat.one_pos Nat.one_pos (Nat.mul_le_mul_right _ (Nat.mul_le_mul_right _ h))

theorem nearestWhole_mono (h : m ≤ n) : nearestWhole m ≤ nearestWhole n :=
  Nat.mul_le_mul_right _ (Nat.div_le_div_right (by omega))

theorem sixPlaces_mono (h : m ≤ n) : sixPlaces m ≤ sixPlaces n :=
  nearest_mono (by omega) (by omega) (Nat.mul_le_mul_right _ (nearestWhole_mono (scaled_mono h)))

/-- A number of the format that is below the limit is not passed by a magnitude that cannot be moved up. -/
theorem le_mul_million_of_limit_le (hm : Representable m) (h : unitsLimit ≤ scaled n) : m ≤ n * 1000000 := by
  by_contra hlt
  have hle : scaled n ≤ m := nearest_le Nat.one_pos hm.2 (by omega)
  have hlimit := hm.lt
  omega

/-- **The seam**: a magnitude that is rounded does not pass one that stays. -/
theorem sixPlaces_le_of_limit_le (hm : scaled m < unitsLimit) (hn : ulp n ∣ n) (h : unitsLimit ≤ scaled n) :
    sixPlaces m ≤ n :=
  nearest_le (by omega) hn (le_mul_million_of_limit_le (representable_nearestWhole hm) h)

/-- The magnitude of a rounded number. -/
def roundUnits (n : Nat) : Nat := if scaled n < unitsLimit then sixPlaces n else n

theorem roundUnits_zero : roundUnits 0 = 0 := by
  rw [roundUnits, scaled_zero, if_pos unitsLimit_pos, sixPlaces_zero]

theorem roundUnits_mono (hn : ulp n ∣ n) (h : m ≤ n) : roundUnits m ≤ roundUnits n := by
  have hscaled := scaled_mono h
  unfold roundUnits
  by_cases hmoved : scaled n < unitsLimit
  · rw [if_pos hmoved, if_pos (lt_of_le_of_lt hscaled hmoved)]
    exact sixPlaces_mono h
  · rw [if_neg hmoved]
    split
    · exact sixPlaces_le_of_limit_le ‹_› hn (Nat.not_lt.mp hmoved)
    · exact h

namespace Binary64

/-! ## Numbers -/

variable {s t : Bool} {hm : Representable m} {hn : Representable n}

theorem finite_le_finite : finite s m hm ≤ finite t n hn ↔ signed s m ≤ signed t n := by
  constructor
  · rintro ⟨x, hx, y, hy, h⟩
    obtain rfl : signed s m = x := Option.some.inj hx
    obtain rfl : signed t n = y := Option.some.inj hy
    exact h
  · exact fun h => ⟨_, rfl, _, rfl, h⟩

theorem finite_lt_finite : finite s m hm < finite t n hn ↔ signed s m < signed t n := by
  constructor
  · rintro ⟨x, hx, y, hy, h⟩
    obtain rfl : signed s m = x := Option.some.inj hx
    obtain rfl : signed t n = y := Option.some.inj hy
    exact h
  · exact fun h => ⟨_, rfl, _, rfl, h⟩

/-- A rounded number has the sign of the number, and a magnitude that depends on the magnitude alone. -/
theorem units?_roundTo : (roundTo (finite s n hn) resultPlaces).units? = some (signed s (roundUnits n)) := by
  unfold roundUnits
  by_cases h : scaled n < unitsLimit
  · rw [roundTo_finite_of_lt h, if_pos h]
    by_cases hzero : sixPlaces n = 0
    · rw [if_pos hzero, hzero]
      cases s <;> rfl
    · rw [if_neg hzero]
      rfl
  · rw [roundTo_finite_of_le (Nat.not_lt.mp h), if_neg h]
    rfl

/-- A map of magnitudes that keeps their order, and zero, keeps the order of signed magnitudes. -/
theorem signed_le_signed {f : Nat → Nat} (hzero : f 0 = 0) (hle : m ≤ n → f m ≤ f n) (hge : n ≤ m → f n ≤ f m)
    (h : signed s m ≤ signed t n) : signed s (f m) ≤ signed t (f n) := by
  cases s <;> cases t <;> simp only [signed_true, signed_false] at h ⊢
  · exact Int.ofNat_le.mpr (hle (Int.ofNat_le.mp h))
  · obtain ⟨rfl, rfl⟩ : m = 0 ∧ n = 0 := by omega
    rw [hzero]
    exact h
  · omega
  · have hback := hge (by omega)
    omega

theorem le_of_units? {x y : Binary64} {i j : Int} (hx : x.units? = some i) (hy : y.units? = some j) (h : i ≤ j) :
    x ≤ y :=
  ⟨i, hx, j, hy, h⟩

theorem signed_not (s : Bool) (n : Nat) : signed (!s) n = -signed s n := by
  cases s <;> simp

theorem units?_neg {x : Binary64} (hx : x.isFinite) : (-x).units? = x.units?.map (-·) := by
  obtain ⟨s, n, hn, rfl⟩ := isFinite_iff.mp hx
  exact congrArg some (signed_not s n)

/-- **Rounding** to six places keeps the order of finite numbers, and changes the sign of the result with the sign of
the number. -/
theorem roundTo_mono {v w : Binary64} (hv : v.isFinite) (hw : w.isFinite) (h : v ≤ w) :
    (roundTo v resultPlaces).isFinite ∧ (roundTo w resultPlaces).isFinite ∧
      roundTo v resultPlaces ≤ roundTo w resultPlaces ∧
      roundTo (-v) resultPlaces ≤ -roundTo v resultPlaces ∧ -roundTo v resultPlaces ≤ roundTo (-v) resultPlaces := by
  have hfinite := (isFinite_roundTo hv).1
  refine ⟨hfinite, (isFinite_roundTo hw).1, ?_⟩
  obtain ⟨s, m, hm, rfl⟩ := isFinite_iff.mp hv
  obtain ⟨t, n, hn, rfl⟩ := isFinite_iff.mp hw
  have horder := signed_le_signed roundUnits_zero (roundUnits_mono hn.2) (roundUnits_mono hm.2) (finite_le_finite.mp h)
  have hopposite : (-roundTo (finite s m hm) resultPlaces).units? = some (signed (!s) (roundUnits m)) := by
    rw [units?_neg hfinite, units?_roundTo, signed_not]
    rfl
  have hrounded : (roundTo (-finite s m hm) resultPlaces).units? = some (signed (!s) (roundUnits m)) := units?_roundTo
  exact ⟨le_of_units? units?_roundTo units?_roundTo horder, le_of_units? hrounded hopposite le_rfl,
    le_of_units? hopposite hrounded le_rfl⟩

/-- A number that is moved up and rounded, and a greater one that is too large for it. -/
theorem roundTo_mono_seam :
    let v := ofNat (tenPow 302)
    let w := ofNat (tenPow 303)
    v.isFinite ∧ w.isFinite ∧ v ≤ w ∧ (v * ofNat (tenPow 6)).isFinite ∧ ¬ (w * ofNat (tenPow 6)).isFinite ∧
      (roundTo v resultPlaces).isFinite ∧ (roundTo w resultPlaces).isFinite ∧
      roundTo v resultPlaces ≤ roundTo w resultPlaces ∧
      roundTo (-v) resultPlaces ≤ -roundTo v resultPlaces ∧ -roundTo v resultPlaces ≤ roundTo (-v) resultPlaces := by
  intro v w
  have hv : v.isFinite := by decide +kernel
  have hw : w.isFinite := by decide +kernel
  have hle : v ≤ w := by decide +kernel
  have hmoved : (v * ofNat (tenPow 6)).isFinite ∧ ¬ (w * ofNat (tenPow 6)).isFinite := by decide +kernel
  exact ⟨hv, hw, hle, hmoved.1, hmoved.2, roundTo_mono hv hw hle⟩

end Binary64

end Keypad
