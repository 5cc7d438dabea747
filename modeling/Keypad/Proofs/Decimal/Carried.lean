import Keypad.Evaluation
import Keypad.Proofs.Decimal.Numeral
import Keypad.Proofs.Decimal.Shortest
import Mathlib.Data.List.Induction
import Mathlib.Data.List.TakeWhile

/-!
# Keypad.Proofs.Decimal.Carried — a carried number reads back

* `Spells`: a text that consists of a sign, a whole part without leading zeros and a fraction, and reads as a number.
* `carriedText_cases`: a whole number or the shortest decimal is printed, in positional notation.
* `positional_spells`, `carriedText_spells`: the texts that are printed are of this kind.
* `readOperand_carriedText`: the carried text reads back; only a negative zero loses its sign.
* `Spells.isUnsigned_or_isNegative`, `Spells.isFinite_of_isPrefix`: the form of such a text, and what its prefixes read
  as.
* `isFinite_of_fits`: a text that fits on the display reads as a finite number, if at all.
-/

namespace Keypad

open Decimal Binary64

/-! ## Digits of a number -/

namespace Decimal

theorem digits_toDigits (n : Nat) : Digits (Nat.toDigits 10 n) :=
  fun _ hc => Nat.isDigit_of_mem_toDigits (by omega) (by omega) hc

theorem isDigit_digitChar {d : Nat} (h : d < 10) : (Nat.digitChar d).isDigit :=
  digits_toDigits d _ (by rw [Nat.toDigits_of_lt_base h]; exact List.mem_singleton_self _)

theorem digitChar_ne_zero {d : Nat} (h : d < 10) (hd : d ≠ 0) : Nat.digitChar d ≠ '0' := by
  intro h0
  have := Nat.toNat_digitChar_sub_48_of_lt_ten h
  rw [h0] at this
  exact hd this.symm

/-- The digits of a number do not start with zero, unless it is zero. -/
theorem isWhole_toDigits (n : Nat) : IsWhole (Nat.toDigits 10 n) := by
  induction n using Nat.strong_induction_on with
  | _ n ih =>
    by_cases h : n < 10
    · rw [Nat.toDigits_of_lt_base h]
      by_cases h0 : n = 0
      · exact Or.inl (by rw [h0]; rfl)
      · exact Or.inr ⟨_, [], isDigit_digitChar h, digitChar_ne_zero h h0, digits_nil, rfl⟩
    · rw [Nat.toDigits_of_base_le (by omega) (by omega)]
      have hlast : Digits [Nat.digitChar (n % 10)] := by
        simpa [Digits] using isDigit_digitChar (Nat.mod_lt n (by omega))
      rcases ih (n / 10) (by omega) with h0 | ⟨first, digits, hfirst, hne, hdigits, hcons⟩
      · -- only zero is written with the single digit zero
        have hval := congrArg (Nat.ofDigitChars 10 · 0) h0
        simp only [Nat.ofDigitChars_ten_toDigits] at hval
        have : Nat.ofDigitChars 10 ['0'] 0 = 0 := by decide
        omega
      · refine Or.inr ⟨first, digits ++ [Nat.digitChar (n % 10)], hfirst, hne, digits_append.mpr ⟨hdigits, hlast⟩, ?_⟩
        rw [hcons]; rfl

theorem ofDigitChars_lt {digits : List Char} (h : Digits digits) :
    Nat.ofDigitChars 10 digits 0 < tenPow digits.length := by
  induction digits using List.reverseRecOn with
  | nil => decide
  | append_singleton digits d ih =>
    have hd : d.toNat - '0'.toNat < 10 := by
      have := h d (by simp)
      simp only [Char.isDigit, Bool.and_eq_true, decide_eq_true_eq] at this
      have h9 := UInt32.le_iff_toNat_le.mp this.2
      simp at h9 ⊢
      omega
    have ih := ih (digits_append.mp h).1
    rw [Nat.ofDigitChars_append, Nat.ofDigitChars_cons, Nat.ofDigitChars_nil, List.length_append, tenPow_add]
    show _ < _ * 10
    omega

/-! ## Padding and trailing zeros -/

theorem length_padded {width n : Nat} (hw : 0 < width) (h : n < tenPow width) : (padded width n).length = width := by
  have hlen : (Nat.toDigits 10 n).length ≤ width := (Nat.length_toDigits_le_iff (by omega) hw).mpr h
  rw [padded, List.length_append, List.length_replicate]
  omega

theorem ofDigitChars_padded (width n : Nat) : Nat.ofDigitChars 10 (padded width n) 0 = n := by
  rw [padded, Nat.ofDigitChars_append, Nat.ofDigitChars_replicate_zero, Nat.mul_zero, Nat.ofDigitChars_ten_toDigits]

theorem digits_padded (width n : Nat) : Digits (padded width n) := by
  refine digits_append.mpr ⟨fun c hc => ?_, digits_toDigits n⟩
  rw [List.eq_of_mem_replicate hc]
  decide

/-- The digits on both sides of the point are those of the coefficient. -/
theorem ofDigitChars_whole_padded (c : Nat) {places : Nat} (hpos : 0 < places) :
    Nat.ofDigitChars 10 (Nat.toDigits 10 (c / tenPow places) ++ padded places (c % tenPow places)) 0 = c := by
  rw [Nat.ofDigitChars_append, Nat.ofDigitChars_ten_toDigits, Nat.ofDigitChars_eq_ofDigitChars_zero,
    ofDigitChars_padded, length_padded hpos (Nat.mod_lt c (tenPow_pos places))]
  exact Nat.div_add_mod c (tenPow places)

theorem eq_dropTrailingZeros_append (digits : List Char) :
    ∃ k, digits = dropTrailingZeros digits ++ List.replicate k '0' := by
  refine ⟨(digits.reverse.takeWhile (· == '0')).length, ?_⟩
  have hzeros : digits.reverse.takeWhile (· == '0') =
      List.replicate (digits.reverse.takeWhile (· == '0')).length '0' :=
    List.eq_replicate_of_mem fun c hc => by simpa using List.mem_takeWhile_imp hc
  have hsplit := congrArg List.reverse (List.takeWhile_append_dropWhile (p := (· == '0')) (l := digits.reverse))
  rw [List.reverse_append, List.reverse_reverse, hzeros, List.reverse_replicate] at hsplit
  exact hsplit.symm

end Decimal

/-! ## Texts that read as a number -/

/-- A sign, a whole part without leading zeros and a fraction, whose digits are read as the number. -/
def Spells (s : Bool) (text : List Char) (x : Binary64) : Prop :=
  ∃ n fraction, IsFraction fraction ∧ text = signText s ++ (Nat.toDigits 10 n ++ fraction) ∧
    ofScientific s (Nat.ofDigitChars 10 (Nat.toDigits 10 n ++ fraction.tail) 0) (-(fraction.tail.length : Int)) = x

theorem toDigits_spells (s : Bool) (n : Nat) : Spells s (signText s ++ Nat.toDigits 10 n) (ofScientific s n 0) := by
  refine ⟨n, [], IsFraction.nil, by rw [List.append_nil], ?_⟩
  rw [List.tail_nil, List.append_nil, Nat.ofDigitChars_ten_toDigits]
  rfl

/-- Digits on both sides of the point, without the zeros at the end. -/
theorem withFraction_spells (s : Bool) (c : Nat) {places : Nat} (hpos : 0 < places) :
    Spells s (signText s ++ withFraction (Nat.toDigits 10 (c / tenPow places))
      (dropTrailingZeros (padded places (c % tenPow places)))) (ofScientific s c (-(places : Int))) := by
  obtain ⟨k, hk⟩ := eq_dropTrailingZeros_append (padded places (c % tenPow places))
  have hlength := length_padded hpos (Nat.mod_lt c (tenPow_pos places))
  have hdigits := digits_padded places (c % tenPow places)
  generalize dropTrailingZeros (padded places (c % tenPow places)) = shown at hk ⊢
  rw [hk] at hlength hdigits
  rw [List.length_append, List.length_replicate] at hlength
  have hshown : Digits shown := (digits_append.mp hdigits).1
  -- all digits make up the coefficient, up to the zeros that are not shown
  have hcoefficient : Nat.ofDigitChars 10 (Nat.toDigits 10 (c / tenPow places) ++ shown) 0 * tenPow k = c := by
    have hall := ofDigitChars_whole_padded c hpos
    rw [hk, ← List.append_assoc, Nat.ofDigitChars_append, Nat.ofDigitChars_replicate_zero, Nat.mul_comm] at hall
    exact hall
  have hshift := ofScientific_shift (s := s)
    (c := Nat.ofDigitChars 10 (Nat.toDigits 10 (c / tenPow places) ++ shown) 0) (e := -(shown.length : Int)) k
  have hexp : -(shown.length : Int) - k = -(places : Int) := by omega
  rw [hcoefficient, hexp] at hshift
  rw [hshift]
  rcases shown with _ | ⟨d, shown⟩
  · exact ⟨c / tenPow places, [], IsFraction.nil, by simp [withFraction], by simp⟩
  · exact ⟨c / tenPow places, '.' :: d :: shown, Or.inr ⟨_, hshown, rfl⟩, rfl, rfl⟩

theorem positional_spells (s : Bool) (c : Nat) (e : Int) :
    Spells s (signText s ++ positional c e) (ofScientific s c e) := by
  unfold positional
  by_cases he : 0 ≤ e
  · rw [if_pos he]
    have h := ofScientific_shift (s := s) (c := c) (e := e) e.toNat
    have hexp : e - e.toNat = 0 := by omega
    rw [hexp] at h
    rw [← h]
    exact toDigits_spells s _
  · rw [if_neg he]
    have h := withFraction_spells s c (show 0 < (-e).toNat by omega)
    have hexp : -((-e).toNat : Int) = e := by omega
    rwa [hexp] at h

/-! ## Carried texts -/

theorem magnitudeText_of_ne {n : Nat} (hpos : n ≠ 0) :
    magnitudeText n = positional (shortest n).1 (shortest n).2 := by
  unfold magnitudeText
  refine (if_neg hpos).trans ?_
  -- nothing has to be computed of the shortest pair
  generalize shortest n = d
  obtain ⟨c, e⟩ := d
  rfl

theorem ofScientific_whole (s : Bool) {k : Nat} (hn : Representable (k * unitsPerOne)) :
    ofScientific s k 0 = finite s (k * unitsPerOne) hn := by
  have h := ofRatio_exact s (tenPow_pos 0) hn
  rw [ofScientific_eq_ratio (show (0 : Int) ≤ 0 + (0 : Nat) by omega), decimalRatio]
  rw [tenPow_zero, Nat.mul_one] at h
  rw [show ((0 : Int) + (0 : Nat)).toNat = 0 from rfl, tenPow_zero, Nat.mul_one]
  exact h

/-- The number that a carried text stands for: zero has no sign. -/
def unsigned (x : Binary64) : Binary64 := if x.isZero then zero else x

theorem unsigned_of_ne {x : Binary64} (h : x ≠ signedZero true) : unsigned x = x := by
  unfold unsigned
  split
  · rename_i hzero
    cases x with
    | nan => cases hzero
    | infinite s => cases hzero
    | finite s n hn =>
      obtain rfl : n = 0 := beq_iff_eq.mp hzero
      cases s with
      | false => rfl
      | true => exact absurd rfl h
  · rfl

theorem unsigned_finite (s : Bool) {n : Nat} (hn : Representable n) :
    unsigned (finite s n hn) = finite (s && n != 0) n hn := by
  unfold unsigned
  by_cases h : n = 0
  · subst h
    rw [if_pos (isZero_finite.mpr rfl), zero, signedZero]
    simp
  · rw [if_neg (mt isZero_finite.mp h)]
    simp [h]

theorem positional_whole (k : Nat) : positional k 0 = Nat.toDigits 10 k := by
  rw [positional, if_pos le_rfl]
  exact congrArg (Nat.toDigits 10) (Nat.mul_one k)

theorem finite_congr {s : Bool} {m n : Nat} (hm : Representable m) (h : m = n) :
    finite s m hm = finite s n (h ▸ hm) := by
  subst h; rfl

theorem isWhole_zero (s : Bool) (h : Representable 0) : (finite s 0 h).isWhole := by
  rw [isWhole, Nat.zero_mod]; rfl

/-- The carried text of a finite number is a whole number, or the shortest decimal, in positional notation. -/
theorem carriedText_cases {x : Binary64} (hx : x.isFinite) :
    (∃ s k, carriedText x = signText s ++ positional k 0 ∧ ofScientific s k 0 = unsigned x) ∨
      ∃ s n hn, n ≠ 0 ∧ x = finite s n hn ∧
        carriedText x = signText s ++ positional (shortest n).1 (shortest n).2 := by
  obtain ⟨s, n, hn, rfl⟩ := isFinite_iff.mp hx
  rw [carriedText]
  by_cases hwhole : (finite s n hn).isWhole = true ∧ n < wholeLimit * unitsPerOne
  · have hunits : n = n / unitsPerOne * unitsPerOne :=
      (Nat.div_mul_cancel (Nat.dvd_of_mod_eq_zero (beq_iff_eq.mp hwhole.1))).symm
    have hzero : (n / unitsPerOne != 0) = (n / unitsPerOne * unitsPerOne != 0) := by
      have hpos := unitsPerOne_pos
      rw [Bool.eq_iff_iff, bne_iff_ne, bne_iff_ne, ne_eq, ne_eq, Nat.mul_eq_zero]
      omega
    rw [if_pos hwhole]
    refine Or.inl ⟨s && n / unitsPerOne != 0, n / unitsPerOne, by rw [integerText, positional_whole], ?_⟩
    rw [finite_congr hn hunits, ofScientific_whole _ (hunits ▸ hn), unsigned_finite, hzero]
  · have hpos : n ≠ 0 := by
      intro h0
      subst h0
      exact hwhole ⟨isWhole_zero s hn, Nat.mul_pos (tenPow_pos 15) unitsPerOne_pos⟩
    rw [if_neg hwhole, Binary64.text, magnitudeText_of_ne hpos]
    exact Or.inr ⟨s, n, hn, hpos, rfl, rfl⟩

/-- **The carried text** of a finite number spells it, and zero without a sign. -/
theorem carriedText_spells {x : Binary64} (hx : x.isFinite) : ∃ t, Spells t (carriedText x) (unsigned x) := by
  rcases carriedText_cases hx with ⟨s, k, htext, hvalue⟩ | ⟨s, n, hn, hpos, rfl, htext⟩
  · rw [htext, ← hvalue]
    exact ⟨s, positional_spells s k 0⟩
  · have h := positional_spells s (shortest n).1 (shortest n).2
    rw [ofScientific_sign (shortest_reads hn hpos)] at h
    rw [htext, unsigned, if_neg (mt isZero_finite.mp hpos)]
    exact ⟨s, h⟩

/-! ## Reading back -/

section Spells

variable {s : Bool} {text p : List Char} {x : Binary64}

theorem Spells.read? (h : Spells s text x) : Binary64.read? text = some x := by
  obtain ⟨n, fraction, hfraction, rfl, hvalue⟩ := h
  rw [read?_numeral s (digits_toDigits n) hfraction (by simp), hvalue]

theorem Spells.isUnsigned_or_isNegative (h : Spells s text x) : IsUnsigned text ∨ IsNegative text := by
  obtain ⟨n, fraction, hfraction, rfl, -⟩ := h
  cases s with
  | false => exact Or.inl ⟨_, fraction, isWhole_toDigits n, hfraction, rfl⟩
  | true => exact Or.inr ⟨_, fraction, digits_toDigits n, hfraction, rfl⟩

theorem ofDigitChars_mul_le (a b : List Char) :
    Nat.ofDigitChars 10 a 0 * tenPow b.length ≤ Nat.ofDigitChars 10 (a ++ b) 0 := by
  rw [Nat.ofDigitChars_append, Nat.ofDigitChars_eq_ofDigitChars_zero (l := b), Nat.mul_comm]
  exact Nat.le_add_right _ _

/-- What is cut off at the end are digits of the coefficient, and at least as many as places of the fraction. -/
theorem prefix_parts {whole fraction q : List Char} (hwhole : Digits whole) (hfraction : IsFraction fraction)
    (hq : q <+: whole ++ fraction) :
    ∃ whole' fraction' more, q = whole' ++ fraction' ∧ Digits whole' ∧ IsFraction fraction' ∧
      whole ++ fraction.tail = whole' ++ fraction'.tail ++ more ∧
      fraction.tail.length ≤ fraction'.tail.length + more.length := by
  rcases prefix_append_cases hq with ⟨more, rfl⟩ | ⟨fraction', ⟨more, rfl⟩, rfl⟩
  · exact ⟨q, [], more ++ fraction.tail, by simp, (digits_append.mp hwhole).1, IsFraction.nil, by simp, by simp⟩
  · have hfraction' := hfraction.of_isPrefix (List.prefix_append fraction' more)
    rcases fraction' with _ | ⟨c, digits⟩
    · exact ⟨whole, [], more.tail, rfl, hwhole, hfraction', by simp, by simp⟩
    · exact ⟨whole, c :: digits, more, rfl, hwhole, hfraction', by simp, by simp⟩

/-- Whatever a prefix of a text that spells a finite number reads as is finite. -/
theorem Spells.isFinite_of_isPrefix {y : Binary64} (h : Spells s text x) (hx : x.isFinite) (hp : p <+: text)
    (hread : Binary64.read? p = some y) : y.isFinite := by
  obtain ⟨n, fraction, hfraction, rfl, rfl⟩ := h
  rcases prefix_append_cases hp with hsign | ⟨q, hq, rfl⟩
  · -- nothing, or a sign alone, is not read
    have hp' : p = [] ∨ p = ['-'] := by
      cases s with
      | false => exact Or.inl (List.prefix_nil.mp hsign)
      | true =>
        rcases List.prefix_cons_iff.mp hsign with rfl | ⟨t, rfl, ht⟩
        · exact Or.inl rfl
        · exact Or.inr (by rw [List.prefix_nil.mp ht])
    rcases hp' with rfl | rfl <;> cases hread
  · obtain ⟨whole', fraction', more, rfl, hwhole', hfraction', hdigits, hlength⟩ :=
      prefix_parts (digits_toDigits n) hfraction hq
    rw [eq_ofScientific_of_read? hwhole' hfraction' hread]
    rw [hdigits] at hx
    exact isFinite_ofScientific_of_le hx (ofDigitChars_mul_le _ more) (by omega)

end Spells

/-- A text that fits on the display reads as a finite number, if it reads at all. -/
theorem isFinite_of_fits {text : List Char} {y : Binary64} (hform : IsUnsigned text ∨ IsNegative text)
    (hfits : text.length ≤ displayWidth) (hread : Binary64.read? text = some y) : y.isFinite := by
  obtain ⟨s, whole, fraction, hwhole, hfraction, rfl⟩ := exists_parts hform
  have hlength : (whole ++ fraction.tail).length ≤ displayWidth := by
    simp only [List.length_append, List.length_tail] at hfits ⊢
    omega
  have hbound : Nat.ofDigitChars 10 (whole ++ fraction.tail) 0 * tenPow 0 ≤ tenPow displayWidth := by
    rw [tenPow_zero, Nat.mul_one]
    refine le_trans (Nat.le_of_lt (ofDigitChars_lt ?_)) (tenPow_le hlength)
    exact digits_append.mpr ⟨hwhole, hfraction.digits_tail⟩
  have hfin : (ofScientific false (tenPow displayWidth) 0).isFinite := by
    rw [ofScientific_whole false (representable_mul_unitsPerOne (by decide))]
    rfl
  rw [eq_ofScientific_of_read? hwhole hfraction hread]
  exact isFinite_ofScientific_of_le hfin hbound (by omega)

/-! ## The carried text of a finite number -/

section CarriedText

variable {x : Binary64} (hx : x.isFinite)
include hx

theorem isFinite_unsigned : (unsigned x).isFinite := by
  unfold unsigned
  split
  · rfl
  · exact hx

/-- **Carried numbers** read back in full; only a negative zero loses its sign. -/
theorem read?_carriedText : Binary64.read? (carriedText x) = some (unsigned x) := by
  obtain ⟨t, h⟩ := carriedText_spells hx
  exact h.read?

theorem readOperand_carriedText : readOperand (carriedText x) = .ok (unsigned x) := by
  rw [readOperand, read?_carriedText hx]
  exact if_pos (isFinite_unsigned hx)

theorem carriedText_form : IsUnsigned (carriedText x) ∨ IsNegative (carriedText x) := by
  obtain ⟨t, h⟩ := carriedText_spells hx
  exact h.isUnsigned_or_isNegative

theorem carriedText_ne_nil : carriedText x ≠ [] := by
  obtain ⟨t, n, fraction, -, htext, -⟩ := carriedText_spells hx
  rw [htext]
  simp [Nat.toDigits_ne_nil]

theorem displayText_ne_nil : displayText x ≠ [] := by
  rw [displayText, fitDisplay, ne_eq, List.take_eq_nil_iff]
  exact not_or.mpr ⟨by decide, carriedText_ne_nil hx⟩

theorem isFinite_of_isPrefix_carriedText {p : List Char} {y : Binary64} (hp : p <+: carriedText x)
    (hread : Binary64.read? p = some y) : y.isFinite := by
  obtain ⟨t, h⟩ := carriedText_spells hx
  exact h.isFinite_of_isPrefix (isFinite_unsigned hx) hp hread

end CarriedText

end Keypad
