import Keypad.Proofs.Binary64.Order
import Keypad.Proofs.Decimal.Cut
import Keypad.Proofs.Results

/-!
# Keypad.Proofs.Display — what the display shows of a result

The display is nine characters wide.  A result that is not zero is a millionth at least, which takes a sign, a zero, a
point and six places.

* `positional_take`: a decimal of at least a millionth has a digit other than zero among its first eight characters.
* `magnitude_of_evaluate`: a result is zero or at least `millionth`, the number nearest to a millionth.
* `millionth_le_of_lt`: the decimal of a greater number is a millionth at least; that of `millionth` is one itself.
* `head?_displayText`, `exists_significant_displayText`: the sign and the size of a number can be seen.
* `display?_of_evaluate`: the display of every result.
-/

namespace Keypad

open Decimal Binary64

/-! ## Digits other than zero -/

namespace Decimal

theorem exists_significant_of_pos {digits : List Char} (h : Digits digits) (hpos : 0 < Nat.ofDigitChars 10 digits 0) :
    ∃ d ∈ digits, d.isDigit ∧ d ≠ '0' := by
  by_contra hnone
  have hzeros : digits = List.replicate digits.length '0' :=
    List.eq_replicate_of_mem fun d hd => by
      by_contra hne
      exact hnone ⟨d, hd, h d hd, hne⟩
  rw [hzeros, Nat.ofDigitChars_replicate_zero] at hpos
  omega

/-- The first digit of a positive number. -/
theorem toDigits_first {w : Nat} (hw : w ≠ 0) : ∃ d rest, Nat.toDigits 10 w = d :: rest ∧ d.isDigit ∧ d ≠ '0' := by
  rcases isWhole_toDigits w with h | ⟨first, digits, hfirst, hzero, -, h⟩
  · have hvalue := Nat.ofDigitChars_ten_toDigits (n := w)
    rw [h] at hvalue
    exact absurd hvalue.symm hw
  · exact ⟨first, digits, h, hfirst, hzero⟩

/-- Behind the point, a digit other than zero is among the first places if the fraction is no less than their unit. -/
theorem padded_take {places n k : Nat} (hpos : 0 < places) (hn : n < tenPow places) (h : tenPow places ≤ n * tenPow k) :
    ∃ d ∈ (padded places n).take k, d.isDigit ∧ d ≠ '0' := by
  have hdigits := digits_padded places n
  have hlength := length_padded hpos hn
  have hvalue := ofDigitChars_padded places n
  rw [← List.take_append_drop k (padded places n)] at hdigits hvalue
  obtain ⟨hfirst, hrest⟩ := digits_append.mp hdigits
  refine exists_significant_of_pos hfirst (Nat.pos_of_ne_zero fun hzero => ?_)
  -- otherwise all of the number stands behind these places, and is less than their unit
  have hlt := ofDigitChars_lt hrest
  rw [ofDigitChars_append, hzero, Nat.zero_mul, Nat.zero_add] at hvalue
  rw [hvalue, List.length_drop, hlength] at hlt
  rcases Nat.le_total k places with hle | hge
  · have hsplit : tenPow places = tenPow (places - k) * tenPow k := by rw [← tenPow_add, Nat.sub_add_cancel hle]
    rw [hsplit] at h
    exact absurd hlt (Nat.not_lt.mpr (Nat.le_of_mul_le_mul_right h (tenPow_pos k)))
  · have hnone : n = 0 := by
      rw [Nat.sub_eq_zero_of_le hge] at hlt
      exact Nat.lt_one_iff.mp hlt
    rw [hnone, Nat.zero_mul] at h
    exact absurd (tenPow_pos places) (Nat.not_lt.mpr h)

/-- **Positional notation** of a decimal that is at least a millionth: one of the first eight characters is a digit
other than zero. -/
theorem positional_take {c : Nat} {e : Int} (h : tenPow (-e).toNat ≤ c * tenPow e.toNat * tenPow 6) :
    ∃ d ∈ (positional c e).take 8, d.isDigit ∧ d ≠ '0' := by
  have hfirst {w : Nat} {more : List Char} (hw : w ≠ 0) :
      ∃ d ∈ (Nat.toDigits 10 w ++ more).take 8, d.isDigit ∧ d ≠ '0' := by
    obtain ⟨d, rest, hdigits, hd⟩ := toDigits_first hw
    rw [hdigits]
    exact ⟨d, List.mem_cons_self, hd⟩
  by_cases he : 0 ≤ e
  · rw [positional, if_pos he, ← List.append_nil (Nat.toDigits 10 _)]
    refine hfirst fun hzero => ?_
    rw [hzero, Nat.zero_mul] at h
    exact absurd (tenPow_pos _) (Nat.not_lt.mpr h)
  · obtain ⟨shown, zeros, hshown, htext, -⟩ := positional_parts c (Int.not_le.mp he)
    rw [htext]
    by_cases hwhole : c / tenPow (-e).toNat = 0
    · have hlt : c < tenPow (-e).toNat := (Nat.div_eq_zero_iff_lt (tenPow_pos _)).mp hwhole
      have hexp : e.toNat = 0 := by omega
      rw [hexp, tenPow_zero, Nat.mul_one] at h
      obtain ⟨d, hmem, hd⟩ := padded_take (by omega) hlt h
      rw [Nat.mod_eq_of_lt hlt] at hshown
      rw [hshown, List.take_append] at hmem
      have hmem : d ∈ shown.take 6 := by
        rcases List.mem_append.mp hmem with hmem | hmem
        · exact hmem
        · exact absurd (List.eq_of_mem_replicate (List.mem_of_mem_take hmem)) hd.2
      have hne : shown ≠ [] := by
        rintro rfl
        cases hmem
      rw [hwhole, if_neg hne]
      exact ⟨d, List.mem_cons_of_mem _ (List.mem_cons_of_mem _ hmem), hd⟩
    · exact hfirst hwhole

end Decimal

/-! ## Results -/

/-- The magnitude of a millionth. -/
def millionth : Nat := nearest unitsPerOne 1000000

/-- A magnitude that is rounded, but not to zero, is a millionth at least. -/
theorem millionth_le_roundUnits {n : Nat} (hn : ulp n ∣ n) (hzero : roundUnits n ≠ 0) : millionth ≤ roundUnits n := by
  unfold roundUnits at hzero ⊢
  split
  · rw [if_pos ‹_›] at hzero
    refine nearest_mono (by omega) (by omega) (Nat.mul_le_mul_right _ (Nat.le_mul_of_pos_left _ ?_))
    refine Nat.pos_of_ne_zero fun hwhole => hzero ?_
    rw [sixPlaces, nearestWhole, hwhole, Nat.zero_mul]
    exact nearest_eq_zero (by omega)
  · rename_i hmoved
    have hone : Representable unitsPerOne := by
      have h := representable_mul_unitsPerOne (k := 1) (twoPow_pos 53)
      rwa [Nat.one_mul] at h
    exact nearest_le (by omega) hn (le_mul_million_of_limit_le hone (Nat.not_lt.mp hmoved))

theorem magnitude_of_evaluate {tokens : List Token} {x : Binary64} (h : evaluate tokens = .ok x) :
    ∃ s n hn, x = finite s n hn ∧ x ≠ signedZero true ∧ (n ≠ 0 → millionth ≤ n) := by
  obtain ⟨y, hy, rfl⟩ := exists_roundTo_of_evaluate h
  obtain ⟨hfinite, hsign⟩ := isFinite_roundTo hy
  obtain ⟨t, m, hm, rfl⟩ := isFinite_iff.mp hy
  obtain ⟨s, n, hn, hx⟩ := isFinite_iff.mp hfinite
  refine ⟨s, n, hn, hx, hsign, fun hne => ?_⟩
  have hunits := @units?_roundTo _ t hm
  rw [hx, units?_finite] at hunits
  have hmagnitude : n = roundUnits m := by
    have hvalue := Option.some.inj hunits
    unfold signed at hvalue
    split at hvalue <;> split at hvalue <;> omega
  rw [hmagnitude] at hne ⊢
  exact millionth_le_roundUnits hm.2 hne

/-! ## Texts -/

section CarriedText

variable {s : Bool} {n : Nat} {hn : Representable n}

/-- A number other than the negative zero is carried with its own sign, as a decimal that reads back. -/
theorem carriedText_eq_positional (hx : finite s n hn ≠ signedZero true) :
    ∃ c e, carriedText (finite s n hn) = signText s ++ positional c e ∧ ofScientific s c e = finite s n hn := by
  rcases carriedText_cases (x := finite s n hn) rfl with ⟨t, k, htext, hvalue⟩ | ⟨t, m, hm, hpos, heq, htext⟩
  · rw [unsigned_of_ne hx] at hvalue
    obtain ⟨m, hm, hsame⟩ := exists_eq_finite (s := t) (c := k) (e := 0) (by rw [hvalue]; rfl)
    obtain ⟨rfl, -⟩ := finite.inj (hvalue.symm.trans hsame)
    exact ⟨k, 0, htext, hvalue⟩
  · obtain ⟨rfl, rfl⟩ := finite.inj heq
    exact ⟨_, _, htext, ofScientific_sign (shortest_reads hm hpos)⟩

/-- A decimal that reads as more than a millionth is at least a millionth. -/
theorem millionth_le_of_lt {c : Nat} {e : Int} (hread : ofScientific s c e = finite s n hn) (hlt : millionth < n) :
    tenPow (-e).toNat ≤ c * tenPow e.toNat * tenPow 6 := by
  have hplaces : 0 ≤ e + ((-e).toNat : Nat) := by omega
  have hexp : (e + ((-e).toNat : Nat)).toNat = e.toNat := by omega
  rw [ofScientific_eq_finite_iff hplaces, hexp] at hread
  by_contra hsmall
  have hle : n ≤ millionth := by
    rw [← hread]
    refine nearest_mono (tenPow_pos _) (by omega) ?_
    have hmillion : tenPow 6 = 1000000 := rfl
    rw [hmillion] at hsmall
    calc c * tenPow e.toNat * unitsPerOne * 1000000 = unitsPerOne * (c * tenPow e.toNat * 1000000) := by ring
      _ ≤ unitsPerOne * tenPow (-e).toNat := Nat.mul_le_mul_left _ (by omega)
  omega

theorem displayText_millionth (s : Bool) (h : Representable millionth) :
    displayText (finite s millionth h) = signText s ++ "0.000001".toList := by
  have hshown : ∀ t : Bool, displayText (finite t millionth (by decide +kernel)) = signText t ++ "0.000001".toList := by
    decide +kernel
  exact hshown s

theorem displayText_eq_append {text : List Char} (h : carriedText (finite s n hn) = signText s ++ text) :
    displayText (finite s n hn) = signText s ++ text.take (displayWidth - (signText s).length) := by
  have hsign : (signText s).length ≤ displayWidth := by cases s <;> decide
  rw [displayText, h, fitDisplay, List.take_append, List.take_of_length_le hsign]

/-- **The display** of a number of at least a millionth shows a digit other than zero, and there is no room to spare: a
sign, a zero and a point stand in front of six places. -/
theorem exists_significant_displayText (hx : finite s n hn ≠ signedZero true) (hle : millionth ≤ n) :
    ∃ d ∈ displayText (finite s n hn), d.isDigit ∧ d ≠ '0' := by
  rcases Nat.lt_or_eq_of_le hle with hlt | rfl
  · obtain ⟨c, e, htext, hread⟩ := carriedText_eq_positional hx
    obtain ⟨d, hmem, hd⟩ := positional_take (millionth_le_of_lt hread hlt)
    refine ⟨d, ?_, hd⟩
    rw [displayText_eq_append htext]
    refine List.mem_append_right _ ((List.take_subset_take_left _ ?_) hmem)
    cases s <;> decide
  · rw [displayText_millionth]
    exact ⟨'1', by simp, by decide⟩

theorem lt_zero_iff (hx : finite s n hn ≠ signedZero true) : finite s n hn < zero ↔ s = true := by
  have hsigned : finite s n hn < zero ↔ signed s n < signed false 0 := finite_lt_finite
  rw [hsigned]
  cases s with
  | false => simp
  | true =>
    have hne : n ≠ 0 := by
      rintro rfl
      exact hx rfl
    simp only [signed_true, signed_false, iff_true]
    omega

/-- Exactly the negative numbers are shown with a minus sign. -/
theorem head?_displayText (hx : finite s n hn ≠ signedZero true) :
    (displayText (finite s n hn)).head? = some '-' ↔ s = true := by
  obtain ⟨c, e, htext, -⟩ := carriedText_eq_positional hx
  rw [displayText_eq_append htext]
  cases s with
  | true => exact ⟨fun _ => rfl, fun _ => rfl⟩
  | false =>
    obtain ⟨k, fraction, -, hpositional, -⟩ := positional_spells false c e
    obtain ⟨d, rest, hdigits⟩ := List.exists_cons_of_ne_nil (Nat.toDigits_ne_nil (b := 10) (n := k))
    have hdigit : d.isDigit := digits_toDigits k d (by rw [hdigits]; exact List.mem_cons_self)
    have hstart : positional c e = d :: (rest ++ fraction) := by
      rw [hdigits] at hpositional
      exact hpositional
    rw [hstart]
    refine iff_of_false (fun hhead => ?_) nofun
    obtain rfl : d = '-' := Option.some.inj hhead
    exact absurd hdigit (by decide)

end CarriedText

/-- **The display of a result**: at most nine characters from the front of its carried text, a minus sign exactly for a
negative result, and a digit other than zero exactly for a result other than zero. -/
theorem display?_of_evaluate {tokens : List Token} {v : Binary64} (h : evaluate tokens = .ok v)
    (expression : List Char) :
    v.isFinite ∧ v ≠ signedZero true ∧ ∃ text, (Outcome.ofTokens expression tokens).display? = some text ∧
      text ≠ [] ∧ text.length ≤ 9 ∧ text <+: carriedText v ∧ (text.head? = some '-' ↔ v < zero) ∧
      ((∃ d ∈ text, d.isDigit ∧ d ≠ '0') ↔ v ≠ zero) := by
  obtain ⟨s, n, hn, rfl, hsign, hmagnitude⟩ := magnitude_of_evaluate h
  refine ⟨rfl, hsign, displayText (finite s n hn), ?_, displayText_ne_nil rfl, List.length_take_le _ _,
    List.take_prefix _ _, (head?_displayText hsign).trans (lt_zero_iff hsign).symm, ?_⟩
  · rw [Outcome.display?, Outcome.value?_eq_some_iff.mpr h]
    rfl
  · by_cases hzero : n = 0
    · subst hzero
      have hvalue : finite s 0 hn = zero := by
        cases s with
        | false => rfl
        | true => exact absurd rfl hsign
      have hshown : displayText zero = ['0'] := by decide +kernel
      rw [hvalue, hshown]
      exact iff_of_false (by simp) (not_not_intro rfl)
    · refine iff_of_true (exists_significant_displayText hsign (hmagnitude hzero)) fun hvalue => hzero ?_
      exact (finite.inj hvalue).2

/-- Minus one by a million, the least negative result: it takes all nine characters. -/
theorem display?_of_evaluate_millionth :
    let tokens : List Token := [.literal "-1".toList, .operator .divide, .literal "1000000".toList]
    let v := ofScientific true 1 (-6)
    evaluate tokens = .ok v ∧ v.isFinite ∧ v ≠ signedZero true ∧ displayText v = "-0.000001".toList ∧
      ∃ text, (Outcome.ofTokens "-1÷1000000".toList tokens).display? = some text ∧
        text ≠ [] ∧ text.length ≤ 9 ∧ text <+: carriedText v ∧ (text.head? = some '-' ↔ v < zero) ∧
        ((∃ d ∈ text, d.isDigit ∧ d ≠ '0') ↔ v ≠ zero) := by
  intro tokens v
  have hvalue : evaluate tokens = .ok v := by decide +kernel
  have hshown : displayText v = "-0.000001".toList := by decide +kernel
  obtain ⟨hfinite, hsign, hdisplay⟩ := display?_of_evaluate hvalue "-1÷1000000".toList
  exact ⟨hvalue, hfinite, hsign, hshown, hdisplay⟩

end Keypad
