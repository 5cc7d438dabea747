import Keypad.Power

/-!
# Keypad.Binary64.Basic — the 64-bit binary floating-point numbers

A finite number is a signed whole count of *units* of `2 ^ -1074`, the least positive number, so every question
about its value is a question about natural numbers.

* `ulp n`: the spacing of the format at `n` units; `Representable n`: `n` is one of its magnitudes.
* `Binary64`: NaN, the infinities and the finite numbers; equality is equality of bit patterns (one NaN).
* `nearest`, `ofRatio`: rounding a quotient to the format, ties to even, too large a magnitude to infinity.
* `representable_nearest`: below the limit, `nearest` lands on a magnitude of the format.
* `units?` and the order: NaN is unordered, the two zeros are equal, an infinity lies beyond every finite number.
-/

namespace Keypad

/-! ## Magnitudes -/

/-- The number one in units of `2 ^ -1074`. -/
def unitsPerOne : Nat := twoPow 1074

/-- Finite magnitudes are below this many units. -/
def unitsLimit : Nat := twoPow 2098

theorem unitsPerOne_pos : 0 < unitsPerOne := twoPow_pos 1074

theorem unitsLimit_pos : 0 < unitsLimit := twoPow_pos 2098

/-- The spacing of the format at `n` units: 53 significant bits are kept. -/
def ulp (n : Nat) : Nat := twoPow (n.log2 - 52)

/-- A count of units that the format holds exactly. -/
def Representable (n : Nat) : Prop := n < unitsLimit ∧ ulp n ∣ n

instance (n : Nat) : Decidable (Representable n) := inferInstanceAs (Decidable (_ ∧ _))

/-- A 64-bit binary floating-point number. -/
inductive Binary64
  | nan
  | infinite (negative : Bool)
  | finite (negative : Bool) (units : Nat) (representable : Representable units)
  deriving DecidableEq

/-- The whole number nearest to `num / den`, a tie going to the even one. -/
def roundHalfEven (num den : Nat) : Nat :=
  if 2 * (num % den) < den then num / den
  else if den < 2 * (num % den) then num / den + 1
  else num / den + num / den % 2

/-- The multiple of the spacing at `num / den` that is nearest to it. -/
def nearest (num den : Nat) : Nat :=
  roundHalfEven num (den * ulp (num / den)) * ulp (num / den)

theorem roundHalfEven_le (num den : Nat) : roundHalfEven num den ≤ num / den + 1 := by
  unfold roundHalfEven
  split
  · omega
  · split <;> omega

theorem ulp_pos (n : Nat) : 0 < ulp n := twoPow_pos _

theorem div_ulp_lt (n : Nat) : n / ulp n < twoPow 53 := by
  rw [Nat.div_lt_iff_lt_mul (ulp_pos n), ulp, ← twoPow_add]
  exact Nat.lt_of_lt_of_le (lt_twoPow_log2 n) (twoPow_le (by omega))

theorem ulp_mul_twoPow {k e : Nat} (hk : k ≤ twoPow 53) : ulp (k * twoPow e) ∣ k * twoPow e := by
  rcases Nat.lt_or_eq_of_le hk with h | rfl
  · rcases Nat.eq_zero_or_pos k with rfl | hpos
    · simp
    · have hlog : (k * twoPow e).log2 < 53 + e := by
        rw [log2_lt_iff (Nat.ne_of_gt (Nat.mul_pos hpos (twoPow_pos e))), twoPow_add]
        exact Nat.mul_lt_mul_of_pos_right h (twoPow_pos e)
      exact Nat.dvd_mul_left_of_dvd (twoPow_dvd (by omega)) k
  · rw [← twoPow_add, ulp, log2_twoPow]
    exact twoPow_dvd (by omega)

theorem ulp_nearest_dvd (num den : Nat) : ulp (nearest num den) ∣ nearest num den := by
  refine ulp_mul_twoPow (Nat.le_trans (roundHalfEven_le _ _) ?_)
  rw [← Nat.div_div_eq_div_mul]
  exact div_ulp_lt (num / den)

theorem representable_nearest {num den : Nat} (h : nearest num den < unitsLimit) :
    Representable (nearest num den) :=
  ⟨h, ulp_nearest_dvd num den⟩

namespace Binary64

/-! ## Numbers from quotients -/

/-- The number nearest to `num / den` units, ties to even; beyond the finite range, an infinity. -/
def ofRatio (negative : Bool) (num den : Nat) : Binary64 :=
  if h : nearest num den < unitsLimit then .finite negative (nearest num den) (representable_nearest h)
  else .infinite negative

/-- The number nearest to a count of units. -/
def ofUnits (negative : Bool) (units : Nat) : Binary64 := ofRatio negative units 1

/-- The number nearest to a natural number. -/
def ofNat (n : Nat) : Binary64 := ofUnits false (n * unitsPerOne)

/-- Zero with a sign. -/
def signedZero (negative : Bool) : Binary64 := .finite negative 0 ⟨unitsLimit_pos, Nat.dvd_zero _⟩

/-- Positive zero. -/
def zero : Binary64 := signedZero false

/-! ## Classes of numbers -/

/-- Neither NaN nor an infinity. -/
def isFinite : Binary64 → Bool
  | finite .. => true
  | _ => false

/-- One of the two zeros. -/
def isZero : Binary64 → Bool
  | finite _ n _ => n == 0
  | _ => false

/-- A finite number without a fractional part. -/
def isWhole : Binary64 → Bool
  | finite _ n _ => n % unitsPerOne == 0
  | _ => false

/-! ## Order -/

/-- The signed count of units; an infinity stands at the limit, and NaN has none. -/
def units? : Binary64 → Option Int
  | nan => none
  | infinite s => some (if s then -(unitsLimit : Int) else unitsLimit)
  | finite s n _ => some (if s then -(n : Int) else n)

/-- The numeric order, in which NaN is below nothing. -/
protected def Le (a b : Binary64) : Prop := ∃ x ∈ a.units?, ∃ y ∈ b.units?, x ≤ y

/-- The strict numeric order, in which NaN is below nothing. -/
protected def Lt (a b : Binary64) : Prop := ∃ x ∈ a.units?, ∃ y ∈ b.units?, x < y

instance : LE Binary64 := ⟨Binary64.Le⟩
instance : LT Binary64 := ⟨Binary64.Lt⟩

theorem le_iff {a b : Binary64} : a ≤ b ↔ ∃ x ∈ a.units?, ∃ y ∈ b.units?, x ≤ y := Iff.rfl

instance (a b : Binary64) : Decidable (a < b) :=
  match ha : a.units?, hb : b.units? with
  | some x, some y =>
    if h : x < y then isTrue ⟨x, ha, y, hb, h⟩
    else isFalse fun ⟨_, hx, _, hy, hlt⟩ => by simp_all; omega
  | none, _ => isFalse fun ⟨_, hx, _⟩ => by simp_all
  | some _, none => isFalse fun ⟨_, _, _, hy, _⟩ => by simp_all

instance (a b : Binary64) : Decidable (a ≤ b) :=
  match ha : a.units?, hb : b.units? with
  | some x, some y =>
    if h : x ≤ y then isTrue ⟨x, ha, y, hb, h⟩
    else isFalse fun ⟨_, hx, _, hy, hle⟩ => by simp_all; omega
  | none, _ => isFalse fun ⟨_, hx, _⟩ => by simp_all
  | some _, none => isFalse fun ⟨_, _, _, hy, _⟩ => by simp_all

end Binary64

end Keypad
