import Keypad.Proofs.Decimal.Canonical

/-!
# Keypad.Proofs.Decimal.Cut — numbers that are cut off

* `toDigits_cut`, `fraction_cut`: the digits that are left when a number is cut before or behind its point.
* `ofScientific_ne_of_ten_mul_le`: a whole number reads differently from one that is ten times as large.
* `read?_positional_cut`: what a number in positional notation reads as when it is cut off.
* `read?_ne_of_cut`: so a carried text that is cut off reads as another number, if it is read at all.
-/

namespace Keypad

open Decimal Binary64

/-! ## Digits -/

namespace Decimal

theorem ofDigitChars_append (a b : List Char) :
    Nat.ofDigitChars 10 (a ++ b) 0 = Nat.ofDigitChars 10 a 0 * tenPow b.length + Nat.ofDigitChars 10 b 0 := by
  rw [Nat.ofDigitChars_append, Nat.ofDigitChars_eq_ofDigitChars_zero, Nat.mul_comm]
  rfl

theorem ofDigitChars_pos {digits : List Char} (hdigits : Digits digits) {d : Char} (hd : d ∈ digits) (hzero : d ≠ '0') :
    0 < Nat.ofDigitChars 10 digits 0 := by
  obtain ⟨before, after, rfl⟩ := List.append_of_mem hd
  have hdigit : 0 < Nat.ofDigitChars 10 [d] 0 := by
    have hbounds := hdigits d hd
    simp only [Char.isDigit, Bool.and_eq_true, decide_eq_true_eq] at hbounds
    have h0 := UInt32.le_iff_toNat_le.mp hbounds.1
    have hne : d.toNat ≠ '0'.toNat := fun h => hzero (Char.toNat_inj.mp h)
    rw [Nat.ofDigitChars_cons, Nat.ofDigitChars_nil]
    simp at h0 hne ⊢
    omega
  have hsplit : before ++ d :: after = before ++ ([d] ++ after) := rfl
  have hmore : 0 < Nat.ofDigitChars 10 [d] 0 * tenPow after.length := Nat.mul_pos hdigit (tenPow_pos _)
  rw [hsplit, ofDigitChars_append, ofDigitChars_append]
  omega

/-- The first digits of a number are at most a tenth of it. -/
theorem toDigits_cut {w : Nat} {q : List Char} (hq : q <+: Nat.toDigits 10 w) (hne : q ≠ Nat.toDigits 10 w)
    (hnil : q ≠ []) : 0 < Nat.ofDigitChars 10 q 0 ∧ 10 * Nat.ofDigitChars 10 q 0 ≤ w := by
  have hdigits := (digits_toDigits w).of_isPrefix hq
  constructor
  · obtain ⟨d, q, rfl⟩ := List.exists_cons_of_ne_nil hnil
    rcases isWhole_toDigits w with h | ⟨first, digits, -, hzero, -, h⟩
    · rw [h, List.cons_prefix_cons, List.prefix_nil] at hq
      obtain ⟨rfl, rfl⟩ := hq
      exact absurd h.symm hne
    · rw [h, List.cons_prefix_cons] at hq
      obtain ⟨rfl, -⟩ := hq
      exact ofDigitChars_pos hdigits List.mem_cons_self hzero
  · obtain ⟨more, hmore⟩ := hq
    have hlength : 1 ≤ more.length := by
      rcases more with _ | ⟨d, more⟩
      · rw [List.append_nil] at hmore
        exact absurd hmore hne
      · exact Nat.succ_pos _
    have hten : 10 ≤ tenPow more.length := tenPow_le (m := 1) hlength
    have hvalue : Nat.ofDigitChars 10 (q ++ more) 0 = w := by rw [hmore, Nat.ofDigitChars_ten_toDigits]
    rw [ofDigitChars_append] at hvalue
    have hscaled := Nat.mul_le_mul_left (Nat.ofDigitChars 10 q 0) hten
    omega

/-- Some digit behind the point that is cut off is not zero: the last one. -/
theorem exists_ne_zero_of_isTrimmed {kept more : List Char} (h : IsTrimmed ('.' :: (kept ++ more))) (hne : more ≠ []) :
    ∃ d ∈ more, d ≠ '0' := by
  rcases h with h | ⟨digits, last, -, -, hlast, h⟩
  · cases h
  · obtain ⟨-, h⟩ := List.cons_eq_cons.mp h
    rcases List.eq_nil_or_concat more with rfl | ⟨front, d, rfl⟩
    · exact absurd rfl hne
    · rw [List.concat_eq_append, ← List.append_assoc] at h
      obtain ⟨-, h⟩ := List.append_inj' h rfl
      obtain ⟨rfl, -⟩ := List.cons_eq_cons.mp h
      exact ⟨d, by simp, hlast⟩

/-- What is cut off behind the point are the last digits of the coefficient, and not all of them are zeros. -/
theorem fraction_cut {c places zeros : Nat} {shown kept : List Char} (hpos : 0 < places)
    (hshown : padded places (c % tenPow places) = shown ++ List.replicate zeros '0')
    (htrimmed : IsTrimmed ('.' :: shown)) (hkept : kept <+: shown) (hne : kept ≠ shown) :
    ∃ k, kept.length + k = places ∧ ¬ tenPow k ∣ c ∧
      Nat.ofDigitChars 10 (Nat.toDigits 10 (c / tenPow places) ++ kept) 0 = c / tenPow k := by
  obtain ⟨more, rfl⟩ := hkept
  have hvalue := ofDigitChars_whole_padded c hpos
  have hlength := length_padded hpos (Nat.mod_lt c (tenPow_pos places))
  have hdigits := digits_padded places (c % tenPow places)
  rw [hshown, List.append_assoc] at hvalue hlength hdigits
  rw [← List.append_assoc, ofDigitChars_append] at hvalue
  rw [List.length_append] at hlength
  obtain ⟨-, hmore⟩ := digits_append.mp hdigits
  have hcut : more ≠ [] := by
    rintro rfl
    exact hne (List.append_nil kept).symm
  obtain ⟨d, hd, hzero⟩ := exists_ne_zero_of_isTrimmed htrimmed hcut
  have hrest := ofDigitChars_pos hmore (List.mem_append_left _ hd) hzero
  have hlt := ofDigitChars_lt hmore
  generalize Nat.ofDigitChars 10 (more ++ List.replicate zeros '0') 0 = rest at hvalue hrest hlt
  generalize (more ++ List.replicate zeros '0').length = k at hvalue hlength hlt
  generalize Nat.ofDigitChars 10 (Nat.toDigits 10 (c / tenPow places) ++ kept) 0 = front at hvalue ⊢
  refine ⟨k, hlength, ?_, ?_⟩
  · rw [← hvalue, Nat.dvd_iff_mod_eq_zero, Nat.mul_comm, Nat.mul_add_mod, Nat.mod_eq_of_lt hlt]
    omega
  · rw [← hvalue, Nat.mul_comm, Nat.mul_add_div (tenPow_pos k), Nat.div_eq_of_lt hlt, Nat.add_zero]

end Decimal

/-! ## Reading -/

section Reading

variable {s : Bool} {c w : Nat} {e : Int} {q : List Char}

/-- Between a whole number and ten times as much there are two powers of two, and rounding crosses neither. -/
theorem ofScientific_ne_of_ten_mul_le (hpos : 0 < w) (h : 10 * w * tenPow (-e).toNat ≤ c * tenPow e.toNat)
    (hfinite : (ofScientific s c e).isFinite) : ofScientific s w 0 ≠ ofScientific s c e := by
  obtain ⟨n, hn, hvalue⟩ := exists_eq_finite hfinite
  have hplaces : 0 ≤ e + ((-e).toNat : Nat) := by omega
  have hplaces' : (0 : Int) ≤ 0 + ((-e).toNat : Nat) := by omega
  have hexp : (e + ((-e).toNat : Nat)).toNat = e.toNat := by omega
  have hexp' : ((0 : Int) + ((-e).toNat : Nat)).toNat = (-e).toNat := by omega
  intro heq
  rw [hvalue, ofScientific_eq_finite_iff hplaces', hexp'] at heq
  rw [ofScientific_eq_finite_iff hplaces, hexp] at hvalue
  have hlow : twoPow w.log2 ≤ w := (le_log2_iff (Nat.ne_of_gt hpos)).mp le_rfl
  have hhigh : w ≤ twoPow (w.log2 + 1) := Nat.le_of_lt (lt_twoPow_log2 w)
  have hdouble : twoPow (w.log2 + 2) = 4 * twoPow w.log2 := by
    rw [twoPow_add, Nat.mul_comm]
    rfl
  have hbelow : n ≤ twoPow (w.log2 + 1) * unitsPerOne := by
    rw [← heq]
    refine nearest_le (tenPow_pos _) (by rw [twoPow_mul_unitsPerOne]; exact ulp_twoPow _) ?_
    rw [Nat.mul_right_comm]
    exact Nat.mul_le_mul_right _ (Nat.mul_le_mul_right _ hhigh)
  have habove : twoPow (w.log2 + 2) * unitsPerOne ≤ n := by
    rw [← hvalue]
    refine le_nearest (tenPow_pos _) (by rw [twoPow_mul_unitsPerOne]; exact ulp_twoPow _) ?_
    rw [Nat.mul_right_comm]
    refine Nat.mul_le_mul_right _ (le_trans (Nat.mul_le_mul_right _ ?_) h)
    omega
  have hgap : twoPow (w.log2 + 1) * unitsPerOne < twoPow (w.log2 + 2) * unitsPerOne :=
    Nat.mul_lt_mul_of_pos_right (twoPow_lt (by omega)) unitsPerOne_pos
  omega

/-- Cut in front of the point, a number is read as a tenth of it at most, if anything is left. -/
theorem read?_whole_cut (s : Bool) (hq : q <+: Nat.toDigits 10 w) (hne : q ≠ Nat.toDigits 10 w) :
    Binary64.read? (signText s ++ q) = none ∨
      ∃ v, 0 < v ∧ 10 * v ≤ w ∧ Binary64.read? (signText s ++ q) = some (ofScientific s v 0) := by
  by_cases hnil : q = []
  · rw [hnil, ← List.append_nil ([] : List Char)]
    exact Or.inl (read?_digitless s IsFraction.nil rfl)
  · obtain ⟨hpos, hten⟩ := toDigits_cut hq hne hnil
    have hread := read?_numeral s ((digits_toDigits w).of_isPrefix hq) IsFraction.nil (by simpa using hnil)
    rw [List.tail_nil, List.append_nil] at hread
    exact Or.inr ⟨_, hpos, hten, hread⟩

/-- Cut behind the point, a number is read without the last digits of its coefficient, which are not all zeros. -/
theorem read?_fraction_cut (s : Bool) {places zeros : Nat} {shown f : List Char} (hpos : 0 < places)
    (hshown : padded places (c % tenPow places) = shown ++ List.replicate zeros '0')
    (htrimmed : IsTrimmed (if shown = [] then [] else '.' :: shown))
    (hf : f <+: if shown = [] then [] else '.' :: shown) (hne : f ≠ if shown = [] then [] else '.' :: shown) :
    ∃ k : Nat, k ≤ places ∧ ¬ tenPow k ∣ c ∧
      Binary64.read? (signText s ++ (Nat.toDigits 10 (c / tenPow places) ++ f)) =
        some (ofScientific s (c / tenPow k) (-(places : Int) + k)) := by
  by_cases hnil : shown = []
  · rw [if_pos hnil] at hf hne
    exact absurd (List.prefix_nil.mp hf) hne
  rw [if_neg hnil] at htrimmed hf hne
  have hkept : f.tail <+: shown ∧ f.tail ≠ shown := by
    rcases f with _ | ⟨point, kept⟩
    · exact ⟨List.nil_prefix, fun h => hnil h.symm⟩
    · obtain ⟨rfl, hkept⟩ := List.cons_prefix_cons.mp hf
      exact ⟨hkept, fun h => hne (congrArg _ h)⟩
  obtain ⟨k, hlength, hcut, hvalue⟩ := fraction_cut hpos hshown htrimmed hkept.1 hkept.2
  have hread := read?_numeral s (digits_toDigits (c / tenPow places)) (htrimmed.isFraction.of_isPrefix hf)
    (by simp [Nat.toDigits_ne_nil])
  have hexp : -(f.tail.length : Int) = -(places : Int) + k := by omega
  rw [hvalue, hexp] at hread
  exact ⟨k, by omega, hcut, hread⟩

/-- What is left of a number in positional notation: nothing that is read, a whole number that is a tenth at most, or a
decimal without the last digits of the coefficient, which are not all zeros. -/
theorem read?_positional_cut (s : Bool) (hq : q <+: positional c e) (hne : q ≠ positional c e) :
    Binary64.read? (signText s ++ q) = none ∨
      (∃ w, 0 < w ∧ 10 * w * tenPow (-e).toNat ≤ c * tenPow e.toNat ∧
        Binary64.read? (signText s ++ q) = some (ofScientific s w 0)) ∨
      ∃ k : Nat, ¬ tenPow k ∣ c ∧ e + k ≤ 0 ∧
        Binary64.read? (signText s ++ q) = some (ofScientific s (c / tenPow k) (e + k)) := by
  have hzero {j : Int} (hj : j ≤ 0) : tenPow j.toNat = 1 := by
    rw [Int.toNat_of_nonpos hj]
    rfl
  by_cases he : 0 ≤ e
  · rw [positional, if_pos he] at hq hne
    rcases read?_whole_cut s hq hne with h | ⟨w, hpos, hten, hread⟩
    · exact Or.inl h
    · exact Or.inr (Or.inl ⟨w, hpos, by rwa [hzero (by omega), Nat.mul_one], hread⟩)
  · obtain ⟨shown, zeros, hshown, htext, htrimmed⟩ := positional_parts c (Int.not_le.mp he)
    have hpos : 0 < (-e).toNat := by omega
    rw [htext] at hq hne
    rcases cut_append_cases hq hne with ⟨hwhole, hcut⟩ | ⟨f, hf, hcut, rfl⟩
    · rcases read?_whole_cut s hwhole hcut with h | ⟨w, hw, hten, hread⟩
      · exact Or.inl h
      · refine Or.inr (Or.inl ⟨w, hw, ?_, hread⟩)
        rw [hzero (j := e) (by omega), Nat.mul_one]
        exact (Nat.le_div_iff_mul_le (tenPow_pos _)).mp hten
    · obtain ⟨k, hk, hzeros, hread⟩ := read?_fraction_cut s hpos hshown htrimmed hf hcut
      have hexp : -((-e).toNat : Int) + k = e + k := by omega
      rw [hexp] at hread
      exact Or.inr (Or.inr ⟨k, hzeros, by omega, hread⟩)

/-- A decimal none of whose coarser forms reads the same is not read from a part of its text. -/
theorem read?_ne_of_cut_positional {p : List Char} (hfinite : (ofScientific s c e).isFinite)
    (hcoarser : ∀ k : Nat, ¬ tenPow k ∣ c → e + k ≤ 0 → ofScientific s (c / tenPow k) (e + k) ≠ ofScientific s c e)
    (hp : p <+: signText s ++ positional c e) (hne : p ≠ signText s ++ positional c e) :
    Binary64.read? p ≠ some (ofScientific s c e) := by
  rcases cut_append_cases hp hne with ⟨hsign, hpart⟩ | ⟨q, hq, hpart, rfl⟩
  · -- not even the sign is left
    have hnil : p = [] := by
      cases s with
      | false => exact List.prefix_nil.mp hsign
      | true =>
        rcases List.prefix_cons_iff.mp hsign with rfl | ⟨t, rfl, ht⟩
        · rfl
        · rw [List.prefix_nil.mp ht] at hpart
          exact absurd rfl hpart
    rw [hnil]
    nofun
  · rcases read?_positional_cut s hq hpart with h | ⟨w, hw, hten, h⟩ | ⟨k, hcut, hk, h⟩
    · rw [h]
      nofun
    · rw [h]
      exact fun heq => ofScientific_ne_of_ten_mul_le hw hten hfinite (Option.some.inj heq)
    · rw [h]
      exact fun heq => hcoarser k hcut hk (Option.some.inj heq)

/-- **A carried text** that is cut off reads as another number, if it is read at all. -/
theorem read?_ne_of_cut {x : Binary64} (hx : x.isFinite) {p : List Char} (hp : p <+: carriedText x)
    (hne : p ≠ carriedText x) : Binary64.read? p ≠ some (unsigned x) := by
  rcases carriedText_cases hx with ⟨s, k, htext, hvalue⟩ | ⟨s, n, hn, hpos, rfl, htext⟩
  · rw [htext] at hp hne
    rw [← hvalue]
    refine read?_ne_of_cut_positional (hvalue ▸ isFinite_unsigned hx) (fun j hj hle => ?_) hp hne
    obtain rfl : j = 0 := by omega
    exact absurd (one_dvd k) hj
  · rw [htext] at hp hne
    have hvalue := ofScientific_sign (s := s) (shortest_reads hn hpos)
    have hunsigned : unsigned (finite s n hn) = ofScientific s (shortest n).1 (shortest n).2 := by
      rw [hvalue, unsigned, if_neg (mt isZero_finite.mp hpos)]
    rw [hunsigned]
    refine read?_ne_of_cut_positional (by rw [hvalue]; rfl) (fun k hk _ heq => ?_) hp hne
    rw [hvalue, ← readsBack_iff s hn hpos, shortest_cut hn hpos hk] at heq
    cases heq

end Reading

end Keypad
