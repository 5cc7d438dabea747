import Keypad.Decimal.Shortest
import Keypad.Proofs.Decimal.Scientific

/-!
# Keypad.Proofs.Decimal.Numeral — the texts of numbers

* `Digits`, `IsFraction`, `IsWhole`: the parts of a number's text; `IsUnsigned`: `(0|[1-9][0-9]*)(\.[0-9]*)?`;
  `IsNegative`: `-[0-9]*(\.[0-9]*)?`.
* `IsUnsigned.append_digit`, `IsUnsigned.append_dot`, `IsUnsigned.of_isPrefix` and the same for `IsNegative`: these
  forms are closed under typing at the end and cutting off from there.
* `read?_numeral`: reading takes all digits as the coefficient and the length of the fraction as the exponent.
-/

namespace Keypad.Decimal

/-! ## Forms -/

/-- Only ASCII digits. -/
def Digits (text : List Char) : Prop := ∀ c ∈ text, c.isDigit

/-- Nothing, or a point with digits after it. -/
def IsFraction (text : List Char) : Prop := text = [] ∨ ∃ digits, Digits digits ∧ text = '.' :: digits

/-- The single digit zero, or digits that do not start with zero. -/
def IsWhole (text : List Char) : Prop :=
  text = ['0'] ∨ ∃ first digits, first.isDigit ∧ first ≠ '0' ∧ Digits digits ∧ text = first :: digits

/-- An unsigned number, perhaps with an empty fraction. -/
def IsUnsigned (text : List Char) : Prop :=
  ∃ whole fraction, IsWhole whole ∧ IsFraction fraction ∧ text = whole ++ fraction

/-- A minus sign with what may follow it while a number is edited. -/
def IsNegative (text : List Char) : Prop :=
  ∃ whole fraction, Digits whole ∧ IsFraction fraction ∧ text = '-' :: (whole ++ fraction)

theorem digits_nil : Digits [] := by simp [Digits]

theorem digits_append {a b : List Char} : Digits (a ++ b) ↔ Digits a ∧ Digits b := List.forall_mem_append

theorem digits_cons {c : Char} {text : List Char} : Digits (c :: text) ↔ c.isDigit ∧ Digits text := List.forall_mem_cons

theorem Digits.of_isPrefix {p text : List Char} (h : Digits text) (hp : p <+: text) : Digits p :=
  fun c hc => h c (hp.subset hc)

theorem Digits.not_mem_dot {text : List Char} (h : Digits text) : '.' ∉ text :=
  fun hmem => absurd (h '.' hmem) (by decide)

theorem IsWhole.digits {text : List Char} (h : IsWhole text) : Digits text := by
  rcases h with rfl | ⟨first, digits, hfirst, -, hdigits, rfl⟩
  · simp [Digits]
  · exact digits_cons.mpr ⟨hfirst, hdigits⟩

theorem IsWhole.ne_nil {text : List Char} (h : IsWhole text) : text ≠ [] := by
  rcases h with rfl | ⟨first, digits, -, -, -, rfl⟩ <;> simp

theorem IsFraction.nil : IsFraction [] := Or.inl rfl

theorem IsFraction.digits_tail {text : List Char} (h : IsFraction text) : Digits text.tail := by
  rcases h with rfl | ⟨digits, hdigits, rfl⟩
  · exact digits_nil
  · exact hdigits

/-! ## Prefixes -/

theorem IsWhole.of_isPrefix {p text : List Char} (h : IsWhole text) (hp : p <+: text) (hne : p ≠ []) : IsWhole p := by
  obtain ⟨c, p, rfl⟩ := List.exists_cons_of_ne_nil hne
  rcases h with rfl | ⟨first, digits, hfirst, hzero, hdigits, rfl⟩
  · rw [List.cons_prefix_cons, List.prefix_nil] at hp
    obtain ⟨rfl, rfl⟩ := hp
    exact Or.inl rfl
  · rw [List.cons_prefix_cons] at hp
    obtain ⟨rfl, hp⟩ := hp
    exact Or.inr ⟨c, p, hfirst, hzero, hdigits.of_isPrefix hp, rfl⟩

theorem IsFraction.of_isPrefix {p text : List Char} (h : IsFraction text) (hp : p <+: text) : IsFraction p := by
  rcases p with _ | ⟨c, p⟩
  · exact IsFraction.nil
  · rcases h with rfl | ⟨digits, hdigits, rfl⟩
    · exact absurd (List.prefix_nil.mp hp) (List.cons_ne_nil c p)
    · rw [List.cons_prefix_cons] at hp
      obtain ⟨rfl, hp⟩ := hp
      exact Or.inr ⟨p, hdigits.of_isPrefix hp, rfl⟩

theorem prefix_append_cases {p a b : List Char} (h : p <+: a ++ b) : p <+: a ∨ ∃ q, q <+: b ∧ p = a ++ q := by
  rcases List.prefix_or_prefix_of_prefix h (List.prefix_append a b) with hp | ⟨q, rfl⟩
  · exact Or.inl hp
  · exact Or.inr ⟨q, (List.prefix_append_right_inj a).mp h, rfl⟩

/-- The same for what is not the whole text. -/
theorem cut_append_cases {p a b : List Char} (h : p <+: a ++ b) (hne : p ≠ a ++ b) :
    (p <+: a ∧ p ≠ a) ∨ ∃ q, q <+: b ∧ q ≠ b ∧ p = a ++ q := by
  by_cases hpa : p = a
  · refine Or.inr ⟨[], List.nil_prefix, ?_, by rw [hpa, List.append_nil]⟩
    rintro rfl
    exact hne (by rw [hpa, List.append_nil])
  · rcases prefix_append_cases h with hp | ⟨q, hq, rfl⟩
    · exact Or.inl ⟨hp, hpa⟩
    · refine Or.inr ⟨q, hq, ?_, rfl⟩
      rintro rfl
      exact hne rfl

theorem IsUnsigned.of_isPrefix {p text : List Char} (h : IsUnsigned text) (hp : p <+: text) (hne : p ≠ []) :
    IsUnsigned p := by
  obtain ⟨whole, fraction, hwhole, hfraction, rfl⟩ := h
  rcases prefix_append_cases hp with hp | ⟨q, hq, rfl⟩
  · exact ⟨p, [], hwhole.of_isPrefix hp hne, IsFraction.nil, (List.append_nil p).symm⟩
  · exact ⟨whole, q, hwhole, hfraction.of_isPrefix hq, rfl⟩

theorem IsNegative.of_isPrefix {p text : List Char} (h : IsNegative text) (hp : p <+: text) (hne : p ≠ []) :
    IsNegative p := by
  obtain ⟨whole, fraction, hwhole, hfraction, rfl⟩ := h
  obtain ⟨c, p, rfl⟩ := List.exists_cons_of_ne_nil hne
  rw [List.cons_prefix_cons] at hp
  obtain ⟨rfl, hp⟩ := hp
  rcases prefix_append_cases hp with hp | ⟨q, hq, rfl⟩
  · exact ⟨p, [], hwhole.of_isPrefix hp, IsFraction.nil, by rw [List.append_nil]⟩
  · exact ⟨whole, q, hwhole, hfraction.of_isPrefix hq, rfl⟩

/-! ## Typing at the end -/

theorem isUnsigned_digit {d : Char} (hd : d.isDigit) : IsUnsigned [d] := by
  refine ⟨[d], [], ?_, IsFraction.nil, rfl⟩
  by_cases hzero : d = '0'
  · exact Or.inl (by rw [hzero])
  · exact Or.inr ⟨d, [], hd, hzero, digits_nil, rfl⟩

theorem IsFraction.append_digit {text : List Char} {d : Char} (h : IsFraction text) (hne : text ≠ []) (hd : d.isDigit) :
    IsFraction (text ++ [d]) := by
  rcases h with rfl | ⟨digits, hdigits, rfl⟩
  · exact absurd rfl hne
  · exact Or.inr ⟨digits ++ [d], digits_append.mpr ⟨hdigits, by simpa [Digits] using hd⟩, rfl⟩

/-- A digit continues every number but the single digit zero. -/
theorem IsUnsigned.append_digit {text : List Char} {d : Char} (h : IsUnsigned text) (hzero : text ≠ ['0'])
    (hd : d.isDigit) : IsUnsigned (text ++ [d]) := by
  obtain ⟨whole, fraction, hwhole, hfraction, rfl⟩ := h
  by_cases hne : fraction = []
  · subst hne
    rw [List.append_nil] at hzero ⊢
    rcases hwhole with rfl | ⟨first, digits, hfirst, hfirst0, hdigits, rfl⟩
    · exact absurd rfl hzero
    · refine ⟨first :: (digits ++ [d]), [], Or.inr ⟨first, _, hfirst, hfirst0, ?_, rfl⟩, IsFraction.nil, by simp⟩
      exact digits_append.mpr ⟨hdigits, by simpa [Digits] using hd⟩
  · exact ⟨whole, fraction ++ [d], hwhole, hfraction.append_digit hne hd, List.append_assoc _ _ _⟩

theorem IsUnsigned.append_dot {text : List Char} (h : IsUnsigned text) (hdot : '.' ∉ text) :
    IsUnsigned (text ++ ['.']) := by
  obtain ⟨whole, fraction, hwhole, hfraction, rfl⟩ := h
  rcases hfraction with rfl | ⟨digits, -, rfl⟩
  · exact ⟨whole, ['.'], hwhole, Or.inr ⟨[], digits_nil, rfl⟩, by rw [List.append_nil]⟩
  · exact absurd (List.mem_append_right whole (List.mem_cons_self)) hdot

theorem IsNegative.append_digit {text : List Char} {d : Char} (h : IsNegative text) (hd : d.isDigit) :
    IsNegative (text ++ [d]) := by
  obtain ⟨whole, fraction, hwhole, hfraction, rfl⟩ := h
  by_cases hne : fraction = []
  · subst hne
    exact ⟨whole ++ [d], [], digits_append.mpr ⟨hwhole, by simpa [Digits] using hd⟩, IsFraction.nil, by simp⟩
  · exact ⟨whole, fraction ++ [d], hwhole, hfraction.append_digit hne hd, by simp⟩

theorem IsNegative.append_dot {text : List Char} (h : IsNegative text) (hdot : '.' ∉ text) :
    IsNegative (text ++ ['.']) := by
  obtain ⟨whole, fraction, hwhole, hfraction, rfl⟩ := h
  rcases hfraction with rfl | ⟨digits, -, rfl⟩
  · exact ⟨whole, ['.'], hwhole, Or.inr ⟨[], digits_nil, rfl⟩, by simp⟩
  · exact absurd (by simp) hdot

/-! ## At most one point -/

theorem count_dot_of_parts {whole fraction : List Char} (hwhole : Digits whole) (hfraction : IsFraction fraction) :
    (whole ++ fraction).count '.' ≤ 1 := by
  rw [List.count_append, List.count_eq_zero_of_not_mem hwhole.not_mem_dot]
  rcases hfraction with rfl | ⟨digits, hdigits, rfl⟩
  · simp
  · rw [List.count_cons_self, List.count_eq_zero_of_not_mem hdigits.not_mem_dot]

theorem IsUnsigned.count_dot {text : List Char} (h : IsUnsigned text) : text.count '.' ≤ 1 := by
  obtain ⟨whole, fraction, hwhole, hfraction, rfl⟩ := h
  exact count_dot_of_parts hwhole.digits hfraction

theorem IsNegative.count_dot {text : List Char} (h : IsNegative text) : text.count '.' ≤ 1 := by
  obtain ⟨whole, fraction, hwhole, hfraction, rfl⟩ := h
  rw [List.count_cons_of_ne (by decide)]
  exact count_dot_of_parts hwhole hfraction

/-! ## Reading -/

theorem spanDigits_append {digits rest : List Char} (hdigits : Digits digits)
    (hrest : ∀ c ∈ rest.head?, c.isDigit = false) : Scientific.spanDigits (digits ++ rest) = (digits, rest) := by
  have htake : rest.takeWhile Char.isDigit = [] ∧ rest.dropWhile Char.isDigit = rest := by
    rcases rest with _ | ⟨c, rest⟩
    · simp
    · simp [hrest c rfl]
  rw [Scientific.spanDigits, List.takeWhile_append_of_pos hdigits, List.dropWhile_append_of_pos hdigits, htake.1,
    htake.2, List.append_nil]

theorem scientific_read?_numeral {whole fraction : List Char} (hwhole : Digits whole) (hfraction : IsFraction fraction)
    (hne : whole ++ fraction.tail ≠ []) :
    Scientific.read? (whole ++ fraction) =
      some ⟨Nat.ofDigitChars 10 (whole ++ fraction.tail) 0, -(fraction.tail.length : Int)⟩ := by
  have hspan : Scientific.spanDigits (whole ++ fraction) = (whole, fraction) := by
    refine spanDigits_append hwhole ?_
    rcases hfraction with rfl | ⟨digits, -, rfl⟩
    · simp
    · simp
  have hfrac : Scientific.splitFraction fraction = (fraction.tail, []) := by
    rcases hfraction with rfl | ⟨digits, hdigits, rfl⟩
    · rfl
    · have h : Scientific.spanDigits (digits ++ []) = (digits, []) := spanDigits_append hdigits (by simp)
      rw [List.append_nil] at h
      exact h
  rw [Scientific.read?, hspan]
  simp only [hfrac]
  rw [if_neg (by simpa using hne)]

theorem toLower_of_isDigit {c : Char} (h : c.isDigit) : c.toLower = c := by
  unfold Char.toLower
  split
  · rename_i hupper
    simp only [Char.isDigit, Bool.and_eq_true, decide_eq_true_eq] at h
    have h9 := UInt32.le_iff_toNat_le.mp h.2
    have hA := UInt32.le_iff_toNat_le.mp hupper.1
    simp at h9 hA
    omega
  · rfl

/-- A numeral starts with a digit or a point, so it is no sign and no word. -/
theorem numeral_head {whole fraction : List Char} (hwhole : Digits whole) (hfraction : IsFraction fraction)
    (hne : whole ++ fraction.tail ≠ []) :
    ∃ c rest, whole ++ fraction = c :: rest ∧ c.toLower = c ∧ (c.isDigit ∨ c = '.') := by
  rcases whole with _ | ⟨c, whole⟩
  · rcases hfraction with rfl | ⟨digits, -, rfl⟩
    · exact absurd rfl hne
    · exact ⟨'.', digits, rfl, by decide, Or.inr rfl⟩
  · have hc := (digits_cons.mp hwhole).1
    exact ⟨c, whole ++ fraction, rfl, toLower_of_isDigit hc, Or.inl hc⟩

theorem splitSign_of_ne {c : Char} {rest : List Char} (hminus : c ≠ '-') (hplus : c ≠ '+') :
    Scientific.splitSign (c :: rest) = (false, c :: rest) := by
  unfold Scientific.splitSign
  split
  · rename_i heq
    exact absurd (List.cons_eq_cons.mp heq).1 hminus
  · rename_i heq
    exact absurd (List.cons_eq_cons.mp heq).1 hplus
  · rfl

/-- A signed numeral is read as the number of its digits and its fraction's length. -/
theorem read?_numeral (s : Bool) {whole fraction : List Char} (hwhole : Digits whole) (hfraction : IsFraction fraction)
    (hne : whole ++ fraction.tail ≠ []) :
    Binary64.read? (Binary64.signText s ++ (whole ++ fraction)) =
      some (Binary64.ofScientific s (Nat.ofDigitChars 10 (whole ++ fraction.tail) 0)
        (-(fraction.tail.length : Int))) := by
  obtain ⟨c, rest, hcons, hlower, hc⟩ := numeral_head hwhole hfraction hne
  have hother {d : Char} (hd : d.isDigit = false) (hdot : d ≠ '.') : c ≠ d := by
    rintro rfl
    rcases hc with hc | hc
    · rw [hd] at hc; cases hc
    · exact hdot hc
  have hsplit : Scientific.splitSign (Binary64.signText s ++ (whole ++ fraction)) = (s, whole ++ fraction) := by
    cases s with
    | true => rfl
    | false =>
      show Scientific.splitSign (whole ++ fraction) = _
      rw [hcons]
      exact splitSign_of_ne (hother (by decide) (by decide)) (hother (by decide) (by decide))
  have hword {d : Char} {w : List Char} (hd : d.isDigit = false) (hdot : d ≠ '.') :
      (whole ++ fraction).map Char.toLower ≠ d :: w := by
    rw [hcons, List.map_cons, hlower]
    exact fun h => hother hd hdot (List.cons.inj h).1
  have hinf : (whole ++ fraction).map Char.toLower ≠ "inf".toList := hword (d := 'i') (by decide) (by decide)
  have hinfinity : (whole ++ fraction).map Char.toLower ≠ "infinity".toList := hword (d := 'i') (by decide) (by decide)
  have hnan : (whole ++ fraction).map Char.toLower ≠ "nan".toList := hword (d := 'n') (by decide) (by decide)
  rw [Binary64.read?, hsplit]
  dsimp only
  rw [if_neg (not_or.mpr ⟨hinf, hinfinity⟩), if_neg hnan, scientific_read?_numeral hwhole hfraction hne]
  rfl

theorem read?_digitless (s : Bool) {whole fraction : List Char} (hfraction : IsFraction fraction)
    (hnil : whole ++ fraction.tail = []) : Binary64.read? (Binary64.signText s ++ (whole ++ fraction)) = none := by
  obtain ⟨rfl, htail⟩ := List.append_eq_nil_iff.mp hnil
  rcases hfraction with rfl | ⟨digits, -, rfl⟩
  · cases s <;> rfl
  · obtain rfl : digits = [] := htail
    cases s <;> rfl

/-- What a text of this form reads as, if it reads at all. -/
theorem eq_ofScientific_of_read? {s : Bool} {whole fraction : List Char} {x : Binary64} (hwhole : Digits whole)
    (hfraction : IsFraction fraction) (h : Binary64.read? (Binary64.signText s ++ (whole ++ fraction)) = some x) :
    x = Binary64.ofScientific s (Nat.ofDigitChars 10 (whole ++ fraction.tail) 0) (-(fraction.tail.length : Int)) := by
  by_cases hnil : whole ++ fraction.tail = []
  · rw [read?_digitless s hfraction hnil] at h
    cases h
  · rw [read?_numeral s hwhole hfraction hnil] at h
    exact (Option.some.inj h).symm

theorem exists_parts {text : List Char} (h : IsUnsigned text ∨ IsNegative text) :
    ∃ s whole fraction, Digits whole ∧ IsFraction fraction ∧ text = Binary64.signText s ++ (whole ++ fraction) := by
  rcases h with ⟨whole, fraction, hwhole, hfraction, rfl⟩ | ⟨whole, fraction, hwhole, hfraction, rfl⟩
  · exact ⟨false, whole, fraction, hwhole.digits, hfraction, rfl⟩
  · exact ⟨true, whole, fraction, hwhole, hfraction, rfl⟩

end Keypad.Decimal
