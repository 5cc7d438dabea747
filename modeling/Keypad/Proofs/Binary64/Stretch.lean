import Keypad.Proofs.Binary64.Order

/-!
# Keypad.Proofs.Binary64.Stretch — products and quotients by a positive number

Multiplying and dividing by a positive finite number act on magnitudes, and every number but NaN has one: an infinity
stands at the limit.

* `isNegative`, `magnitude`: the sign bit and the count of units.
* `stretched`: a magnitude times a positive ratio, rounded and cut at the limit; `stretched_mono`: it keeps the order.
* `Stretches`: a number stretched by a ratio; `stretches_div`, `stretches_mul`: the two operations do just that.
* `div_le_div_of_pos`, `mul_le_mul_of_pos`: so both keep the order of all numbers, the infinities among them.
-/

namespace Keypad

open Binary64

/-! ## Magnitudes -/

/-- A magnitude times `num / den`, rounded.  What reaches the limit stands at the limit, and stays there. -/
def stretched (num den n : Nat) : Nat :=
  if n < unitsLimit then min (nearest (n * num) den) unitsLimit else unitsLimit

variable {num den m n : Nat}

theorem stretched_zero (hden : 0 < den) : stretched num den 0 = 0 := by
  rw [stretched, if_pos unitsLimit_pos, Nat.zero_mul, nearest_eq_zero (by omega), Nat.zero_min]

theorem stretched_mono (hden : 0 < den) (h : m ≤ n) : stretched num den m ≤ stretched num den n := by
  unfold stretched
  by_cases hn : n < unitsLimit
  · rw [if_pos hn, if_pos (lt_of_le_of_lt h hn)]
    have hnearest : nearest (m * num) den ≤ nearest (n * num) den :=
      nearest_mono hden hden (Nat.mul_le_mul_right _ (Nat.mul_le_mul_right _ h))
    exact min_le_min_right unitsLimit hnearest
  · rw [if_neg hn]
    split
    · exact min_le_right _ _
    · exact le_rfl

namespace Binary64

/-! ## Signs and magnitudes -/

/-- The sign bit; NaN counts as positive. -/
def isNegative : Binary64 → Bool
  | nan => false
  | infinite s => s
  | finite s _ _ => s

/-- The count of units without its sign; an infinity stands at the limit, and NaN at zero. -/
def magnitude : Binary64 → Nat
  | nan => 0
  | infinite _ => unitsLimit
  | finite _ n _ => n

variable {x y x' y' r : Binary64}

theorem ne_nan_of_isFinite (h : x.isFinite) : x ≠ nan := by
  rintro rfl
  cases h

theorem units?_eq (h : x ≠ nan) : x.units? = some (signed x.isNegative x.magnitude) := by
  cases x with
  | nan => exact absurd rfl h
  | infinite s => rfl
  | finite s n hn => rfl

theorem ne_nan_of_le (h : x ≤ y) : x ≠ nan ∧ y ≠ nan := by
  obtain ⟨i, hi, j, hj, -⟩ := h
  constructor
  · rintro rfl
    cases hi
  · rintro rfl
    cases hj

theorem le_iff_signed (hx : x ≠ nan) (hy : y ≠ nan) :
    x ≤ y ↔ signed x.isNegative x.magnitude ≤ signed y.isNegative y.magnitude := by
  rw [le_iff, units?_eq hx, units?_eq hy]
  simp

/-- A positive number has no sign, and some units. -/
theorem exists_eq_finite_of_pos (hr : r.isFinite) (hpos : zero < r) : ∃ n hn, r = finite false n hn ∧ 0 < n := by
  obtain ⟨s, n, hn, rfl⟩ := isFinite_iff.mp hr
  have hunits : signed false 0 < signed s n := finite_lt_finite.mp hpos
  cases s with
  | true =>
    rw [signed_true, signed_false] at hunits
    omega
  | false => exact ⟨n, hn, rfl, Int.ofNat_lt.mp hunits⟩

/-! ## Stretched numbers -/

/-- The second number is the first one times `num / den`, rounded: its sign is kept, and NaN does not come up. -/
structure Stretches (num den : Nat) (x y : Binary64) : Prop where
  ne_nan : y ≠ nan
  isNegative : y.isNegative = x.isNegative
  magnitude : y.magnitude = stretched num den x.magnitude

theorem ofRatio_ne_nan (s : Bool) (num den : Nat) : ofRatio s num den ≠ nan := by
  unfold ofRatio
  split <;> exact Binary64.noConfusion

theorem isNegative_ofRatio (s : Bool) (num den : Nat) : (ofRatio s num den).isNegative = s := by
  unfold ofRatio
  split <;> rfl

theorem magnitude_ofRatio (s : Bool) (num den : Nat) :
    (ofRatio s num den).magnitude = min (nearest num den) unitsLimit := by
  unfold ofRatio
  split
  · exact (min_eq_left (Nat.le_of_lt ‹_›)).symm
  · exact (min_eq_right (Nat.not_lt.mp ‹_›)).symm

theorem stretches_ofRatio (s : Bool) (hn : Representable n) (num den : Nat) :
    Stretches num den (finite s n hn) (ofRatio s (n * num) den) where
  ne_nan := ofRatio_ne_nan s _ _
  isNegative := isNegative_ofRatio s _ _
  magnitude := by
    rw [magnitude_ofRatio]
    exact (if_pos hn.lt).symm

/-- An infinity stays where it is. -/
theorem stretches_infinite (s : Bool) (num den : Nat) : Stretches num den (infinite s) (infinite s) where
  ne_nan := Binary64.noConfusion
  isNegative := rfl
  magnitude := (if_neg (Nat.lt_irrefl unitsLimit)).symm

theorem infinite_div_finite (s t : Bool) (hn : Representable n) : infinite s / finite t n hn = infinite (s ^^ t) := by
  show div _ _ = _
  rw [div]

theorem infinite_mul_finite (s t : Bool) (hn : Representable n) (h : n ≠ 0) :
    infinite s * finite t n hn = infinite (s ^^ t) := by
  show (if n = 0 then _ else _) = _
  rw [if_neg h]

/-- **Quotients**: dividing by a positive number stretches every number by its inverse. -/
theorem stretches_div (hx : x ≠ nan) (hr : r.isFinite) (hpos : zero < r) :
    Stretches unitsPerOne r.magnitude x (x / r) := by
  obtain ⟨q, hq, rfl, hunits⟩ := exists_eq_finite_of_pos hr hpos
  cases x with
  | nan => exact absurd rfl hx
  | infinite s =>
    rw [infinite_div_finite, Bool.xor_false]
    exact stretches_infinite s unitsPerOne q
  | finite s n hn =>
    rw [finite_div_finite (Nat.ne_of_gt hunits), Bool.xor_false]
    exact stretches_ofRatio s hn unitsPerOne q

/-- **Products**: multiplying by a positive number stretches every number by it. -/
theorem stretches_mul (hx : x ≠ nan) (hr : r.isFinite) (hpos : zero < r) :
    Stretches r.magnitude unitsPerOne x (x * r) := by
  obtain ⟨q, hq, rfl, hunits⟩ := exists_eq_finite_of_pos hr hpos
  cases x with
  | nan => exact absurd rfl hx
  | infinite s =>
    rw [infinite_mul_finite s false hq (Nat.ne_of_gt hunits), Bool.xor_false]
    exact stretches_infinite s q unitsPerOne
  | finite s n hn =>
    rw [finite_mul_finite, Bool.xor_false]
    exact stretches_ofRatio s hn q unitsPerOne

/-- Two numbers that are stretched by the same ratio stay in order. -/
theorem Stretches.le (hden : 0 < den) (hx : Stretches num den x x') (hy : Stretches num den y y') (h : x ≤ y) :
    x' ≤ y' := by
  obtain ⟨hxnan, hynan⟩ := ne_nan_of_le h
  rw [le_iff_signed hx.ne_nan hy.ne_nan, hx.isNegative, hx.magnitude, hy.isNegative, hy.magnitude]
  exact signed_le_signed (stretched_zero hden) (stretched_mono hden) (stretched_mono hden)
    ((le_iff_signed hxnan hynan).mp h)

theorem div_le_div_of_pos (hr : r.isFinite) (hpos : zero < r) (h : x ≤ y) : x / r ≤ y / r := by
  obtain ⟨hx, hy⟩ := ne_nan_of_le h
  obtain ⟨q, hq, rfl, hunits⟩ := exists_eq_finite_of_pos hr hpos
  exact (stretches_div hx hr hpos).le hunits (stretches_div hy hr hpos) h

theorem mul_le_mul_of_pos (hr : r.isFinite) (hpos : zero < r) (h : x ≤ y) : x * r ≤ y * r := by
  obtain ⟨hx, hy⟩ := ne_nan_of_le h
  exact (stretches_mul hx hr hpos).le unitsPerOne_pos (stretches_mul hy hr hpos) h

end Binary64

end Keypad
