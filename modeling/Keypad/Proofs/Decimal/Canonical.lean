import Keypad.Proofs.Decimal.Carried

/-!
# Keypad.Proofs.Decimal.Canonical — one text for each number

* `IsCanonical`: `-?(0|[1-9][0-9]*)(\.[0-9]*[1-9])?`; `positional_parts`: positional notation is of this form.
* `unsigned_eq_iff`: numbers are numerically equal when they are the same but for the sign of a zero.
* `carriedText_canonical`: a carried text is of this form and reads back, so it is the text of one number only.
-/

namespace Keypad

open Decimal Binary64

namespace Decimal

/-! ## Forms -/

/-- Nothing, or a point with digits after it of which the last is not zero. -/
def IsTrimmed (text : List Char) : Prop :=
  text = [] ∨ ∃ digits last, Digits digits ∧ last.isDigit ∧ last ≠ '0' ∧ text = '.' :: (digits ++ [last])

/-- The canonical text of a number: `-?(0|[1-9][0-9]*)(\.[0-9]*[1-9])?`. -/
def IsCanonical (text : List Char) : Prop :=
  ∃ s whole fraction, IsWhole whole ∧ IsTrimmed fraction ∧ text = signText s ++ (whole ++ fraction)

theorem IsTrimmed.isFraction {text : List Char} (h : IsTrimmed text) : IsFraction text := by
  rcases h with rfl | ⟨digits, last, hdigits, hlast, -, rfl⟩
  · exact IsFraction.nil
  · exact Or.inr ⟨digits ++ [last], digits_append.mpr ⟨hdigits, digits_cons.mpr ⟨hlast, digits_nil⟩⟩, rfl⟩

theorem dropTrailingZeros_cases (digits : List Char) :
    dropTrailingZeros digits = [] ∨ ∃ front last, last ≠ '0' ∧ dropTrailingZeros digits = front ++ [last] := by
  unfold dropTrailingZeros
  cases hrest : digits.reverse.dropWhile (· == '0') with
  | nil => exact Or.inl rfl
  | cons last rest =>
    refine Or.inr ⟨rest.reverse, last, ?_, List.reverse_cons⟩
    have hhead := List.head?_dropWhile_not (· == '0') digits.reverse
    rw [hrest] at hhead
    exact beq_eq_false_iff_ne.mp hhead

/-- Positional notation: the digits in front of the point, and those behind it up to the last that is not zero. -/
theorem positional_parts (c : Nat) {e : Int} (he : e < 0) :
    ∃ shown zeros, padded (-e).toNat (c % tenPow (-e).toNat) = shown ++ List.replicate zeros '0' ∧
      positional c e = Nat.toDigits 10 (c / tenPow (-e).toNat) ++ (if shown = [] then [] else '.' :: shown) ∧
      IsTrimmed (if shown = [] then [] else '.' :: shown) := by
  obtain ⟨zeros, hzeros⟩ := eq_dropTrailingZeros_append (padded (-e).toNat (c % tenPow (-e).toNat))
  have hdigits := digits_padded (-e).toNat (c % tenPow (-e).toNat)
  refine ⟨_, zeros, hzeros, ?_, ?_⟩
  · rw [positional, if_neg (by omega), withFraction]
    cases dropTrailingZeros (padded (-e).toNat (c % tenPow (-e).toNat)) with
    | nil => exact (List.append_nil _).symm
    | cons d shown => rfl
  · rw [hzeros] at hdigits
    obtain ⟨hshown, -⟩ := digits_append.mp hdigits
    rcases dropTrailingZeros_cases (padded (-e).toNat (c % tenPow (-e).toNat)) with h | ⟨front, last, hlast, h⟩
    · rw [h]
      exact Or.inl rfl
    · rw [h] at hshown ⊢
      obtain ⟨hfront, hdigit⟩ := digits_append.mp hshown
      rw [if_neg (by simp)]
      exact Or.inr ⟨front, last, hfront, (digits_cons.mp hdigit).1, hlast, rfl⟩

theorem isCanonical_positional (s : Bool) (c : Nat) (e : Int) : IsCanonical (signText s ++ positional c e) := by
  by_cases he : 0 ≤ e
  · rw [positional, if_pos he]
    exact ⟨s, _, [], isWhole_toDigits _, Or.inl rfl, by rw [List.append_nil]⟩
  · obtain ⟨shown, zeros, -, htext, htrimmed⟩ := positional_parts c (Int.not_le.mp he)
    rw [htext]
    exact ⟨s, _, _, isWhole_toDigits _, htrimmed, rfl⟩

end Decimal

/-! ## Carried texts -/

section CarriedText

variable {x y : Binary64}

theorem isCanonical_carriedText (hx : x.isFinite) : IsCanonical (carriedText x) := by
  rcases carriedText_cases hx with ⟨s, k, htext, -⟩ | ⟨s, n, hn, -, -, htext⟩
  · rw [htext]
    exact isCanonical_positional s k 0
  · rw [htext]
    exact isCanonical_positional s _ _

theorem unsigned_eq_ite (x : Binary64) : unsigned x = if x = signedZero true then zero else x := by
  split
  · subst x
    rfl
  · exact unsigned_of_ne ‹_›

/-- The sign of a zero is not written. -/
theorem carriedText_unsigned (x : Binary64) : carriedText (unsigned x) = carriedText x := by
  have hzero (s : Bool) (h : Representable 0) : carriedText (finite s 0 h) = ['0'] := by
    rw [carriedText, if_pos ⟨isWhole_zero s h, Nat.mul_pos (tenPow_pos 15) unitsPerOne_pos⟩, Nat.zero_div]
    cases s <;> rfl
  unfold unsigned
  split
  · rename_i h
    obtain ⟨s, n, hn, rfl⟩ := isFinite_iff.mp (isFinite_of_isZero h)
    obtain rfl : n = 0 := isZero_finite.mp h
    rw [hzero]
    exact hzero false _
  · rfl

/-- Zero is never written with a sign: it would be read with one. -/
theorem carriedText_ne_negative_zero (hx : x.isFinite) : carriedText x ≠ ['-', '0'] := by
  intro h
  have hread := read?_carriedText hx
  have hzero : Binary64.read? ['-', '0'] = some (signedZero true) := rfl
  rw [h, hzero, unsigned_eq_ite] at hread
  have hsigned := Option.some.inj hread
  split at hsigned
  · cases hsigned
  · exact absurd hsigned.symm ‹_›

/-- Finite numbers are numerically equal when they are the same but for the sign of a zero. -/
theorem unsigned_eq_iff (hx : x.isFinite) (hy : y.isFinite) : unsigned x = unsigned y ↔ x ≤ y ∧ y ≤ x := by
  obtain ⟨s, m, hm, rfl⟩ := isFinite_iff.mp hx
  obtain ⟨t, n, hn, rfl⟩ := isFinite_iff.mp hy
  have hle (a b : Binary64) (i j : Int) (ha : a.units? = some i) (hb : b.units? = some j) : a ≤ b ↔ i ≤ j := by
    rw [le_iff, ha, hb]
    simp
  rw [hle _ _ _ _ (units?_finite s hm) (units?_finite t hn), hle _ _ _ _ (units?_finite t hn) (units?_finite s hm),
    unsigned_finite, unsigned_finite, finite.injEq]
  constructor
  · rintro ⟨hsign, rfl⟩
    by_cases hzero : m = 0
    · subst hzero
      simp
    · have hne : (m != 0) = true := bne_iff_ne.mpr hzero
      obtain rfl : s = t := by simpa [hne] using hsign
      exact ⟨le_rfl, le_rfl⟩
  · rintro ⟨hxy, hyx⟩
    have hunits : m = n := by
      cases s <;> cases t <;> simp at hxy hyx <;> omega
    subst hunits
    by_cases hzero : m = 0
    · subst hzero
      simp
    · have hsign : s = t := by
        cases s <;> cases t <;> simp at hxy hyx ⊢ <;> omega
      exact ⟨by rw [hsign], rfl⟩

/-- **The carried text** of a number is canonical and reads back bit for bit, but for the sign of a zero; so numbers
with the same text are equal. -/
theorem carriedText_canonical (hx : x.isFinite) :
    IsCanonical (carriedText x) ∧ carriedText x ≠ ['-', '0'] ∧
      readOperand (carriedText x) = .ok (if x = signedZero true then zero else x) ∧
      ∀ y : Binary64, y.isFinite → (carriedText x = carriedText y ↔ x ≤ y ∧ y ≤ x) := by
  refine ⟨isCanonical_carriedText hx, carriedText_ne_negative_zero hx, ?_, fun y hy => ?_⟩
  · rw [readOperand_carriedText hx, unsigned_eq_ite]
  · rw [← unsigned_eq_iff hx hy]
    constructor
    · intro htext
      have hread := read?_carriedText hx
      rw [htext, read?_carriedText hy] at hread
      exact (Option.some.inj hread).symm
    · intro hvalue
      rw [← carriedText_unsigned x, hvalue, carriedText_unsigned]

/-- A negative tenth, and the negative zero. -/
theorem carriedText_canonical_tenth :
    let tenth := ofScientific true 1 (-1)
    tenth.isFinite ∧ IsCanonical (carriedText tenth) ∧ carriedText tenth = "-0.1".toList ∧
      readOperand (carriedText tenth) = .ok tenth ∧ (signedZero true).isFinite ∧ zero.isFinite ∧
      readOperand (carriedText (signedZero true)) = .ok zero ∧ carriedText (signedZero true) = carriedText zero := by
  intro tenth
  have htenth : tenth.isFinite := by decide +kernel
  have hne : tenth ≠ signedZero true := by decide +kernel
  have htext : carriedText tenth = "-0.1".toList := by decide +kernel
  have hequal : signedZero true ≤ zero ∧ zero ≤ signedZero true := by decide
  obtain ⟨hcanonical, -, hread, -⟩ := carriedText_canonical htenth
  obtain ⟨-, -, hzero, hsame⟩ := carriedText_canonical (x := signedZero true) rfl
  rw [if_neg hne] at hread
  rw [if_pos rfl] at hzero
  exact ⟨htenth, hcanonical, htext, hread, rfl, rfl, hzero, (hsame zero rfl).mpr hequal⟩

end CarriedText

end Keypad
