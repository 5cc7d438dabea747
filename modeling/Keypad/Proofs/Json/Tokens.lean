import Keypad.Proofs.Json.Grammar
import Keypad.Proofs.Text.Reader

/-!
# Keypad.Proofs.Json.Tokens — strings, blanks and numbers are read as they are written

For each kind of token, the reader takes what the grammar writes, and what it takes is written so.

* `readParts_run`, `writtenParts_of_readParts`: the parts of a string.
* `skipBlanks_run`, `blanks_of_skipBlanks`: blanks.
* `Follows`: what stands behind a value; no number goes on there.
* `readExponent_run`, `writtenExponent_of_readExponent`, `readNumber_run`, `writtenNumber_of_readNumber`: numbers.
-/

namespace Keypad.Json

open Text Reader Decimal Binary64

variable {text rest : List Char}

/-! ## Strings -/

theorem readParts_run {parts : List StringPart} (h : WrittenParts parts text) (rest : List Char) :
    readParts (text ++ '"' :: rest) = some (parts, rest) := by
  induction h with
  | nil => rfl
  | @plain c parts text hcontrol hquote hbackslash h ih =>
    rw [List.cons_append, readParts.eq_5 _ _ hquote (fun _ _ _ _ _ hc _ => hbackslash hc) fun _ _ hc _ => hbackslash hc,
      if_neg hcontrol, ih]
    rfl
  | @escape e c parts text he h ih =>
    have hunit : e ≠ 'u' := by
      rintro rfl
      cases he
    rw [List.cons_append, List.cons_append, readParts.eq_4 _ _ fun _ _ _ _ _ hu _ => hunit hu, he, ih]
    rfl
  | @unit i j k l n parts text hn h ih =>
    show readParts ('\\' :: 'u' :: i :: j :: k :: l :: (text ++ '"' :: rest)) = _
    rw [readParts, hn, ih]
    rfl

theorem writtenParts_of_readParts {parts : List StringPart} (h : readParts text = some (parts, rest)) :
    ∃ w, WrittenParts parts w ∧ text = w ++ '"' :: rest := by
  induction text using readParts.induct generalizing parts with
  | case1 => cases h
  | case2 rest' =>
    obtain ⟨rfl, rfl⟩ := Prod.mk.inj (Option.some.inj h)
    exact ⟨[], .nil, rfl⟩
  | case3 i j k l rest' ih =>
    rw [readParts, Option.bind_eq_bind, Option.bind_eq_some_iff] at h
    obtain ⟨n, hn, h⟩ := h
    rw [Option.bind_eq_bind, Option.bind_eq_some_iff] at h
    obtain ⟨⟨more, left⟩, hmore, h⟩ := h
    obtain ⟨rfl, rfl⟩ := Prod.mk.inj (Option.some.inj h)
    obtain ⟨w, hw, rfl⟩ := ih hmore
    exact ⟨_, .unit hn hw, rfl⟩
  | case4 e rest' hne ih =>
    rw [readParts.eq_4 _ _ hne, Option.bind_eq_bind, Option.bind_eq_some_iff] at h
    obtain ⟨c, hc, h⟩ := h
    rw [Option.bind_eq_bind, Option.bind_eq_some_iff] at h
    obtain ⟨⟨more, left⟩, hmore, h⟩ := h
    obtain ⟨rfl, rfl⟩ := Prod.mk.inj (Option.some.inj h)
    obtain ⟨w, hw, rfl⟩ := ih hmore
    exact ⟨_, .escape hc hw, rfl⟩
  | case5 c rest' hquote hunit hescape hcontrol ih =>
    rw [readParts.eq_5 _ _ hquote hunit hescape, if_pos hcontrol] at h
    cases h
  | case6 c rest' hquote hunit hescape hcontrol ih =>
    rw [readParts.eq_5 _ _ hquote hunit hescape, if_neg hcontrol, Option.bind_eq_bind, Option.bind_eq_some_iff] at h
    obtain ⟨⟨more, left⟩, hmore, h⟩ := h
    obtain ⟨rfl, rfl⟩ := Prod.mk.inj (Option.some.inj h)
    obtain ⟨w, hw, rfl⟩ := ih hmore
    refine ⟨_, .plain hcontrol hquote (fun hc => ?_) hw, rfl⟩
    -- a backslash is the start of an escape: something follows it
    obtain ⟨d, more, hcons⟩ : ∃ d more, w ++ '"' :: left = d :: more :=
      List.exists_cons_of_ne_nil (by simp)
    exact hescape d more hc hcons

theorem readString_run {parts : List StringPart} (h : WrittenParts parts text) (rest : List Char) :
    readString (text ++ '"' :: rest) = some (textOf parts, rest) := by
  rw [readString, bind_run (readParts_run h rest)]
  rfl

theorem writtenParts_of_readString {value : Option String} (h : readString text = some (value, rest)) :
    ∃ parts w, value = textOf parts ∧ WrittenParts parts w ∧ text = w ++ '"' :: rest := by
  obtain ⟨parts, mid, hparts, h⟩ := bind_eq_some_iff.mp h
  obtain ⟨rfl, rfl⟩ := pure_eq_some_iff.mp h
  obtain ⟨w, hw, rfl⟩ := writtenParts_of_readParts hparts
  exact ⟨parts, w, rfl, hw, rfl⟩

/-! ## Blanks -/

theorem skipBlanks_run {blanks : List Char} (hblanks : Blanks blanks)
    (hrest : ∀ c ∈ rest.head?, isBlank c = false) : skipBlanks (blanks ++ rest) = some ((), rest) :=
  skipWhile_run hblanks hrest

/-- What is skipped between two tokens. -/
theorem skipBlanks_cons {blanks : List Char} {c : Char} (hblanks : Blanks blanks) (hc : isBlank c = false)
    (rest : List Char) : skipBlanks (blanks ++ c :: rest) = some ((), c :: rest) :=
  skipBlanks_run hblanks fun d hd => by
    obtain rfl := Option.some.inj hd
    exact hc

theorem Blanks.append {first second : List Char} (hfirst : Blanks first) (hsecond : Blanks second) :
    Blanks (first ++ second) := fun c hc =>
  (List.mem_append.mp hc).elim (hfirst c) (hsecond c)

theorem blanks_of_skipBlanks {u : Unit} (h : skipBlanks text = some (u, rest)) :
    ∃ blanks, Blanks blanks ∧ text = blanks ++ rest :=
  let ⟨run, htext, hrun⟩ := skipWhile_eq_some h
  ⟨run, hrun, htext⟩

/-! ## What follows a value -/

/-- The end of the text, a blank, or what continues or closes an array or object. -/
def Follows (rest : List Char) : Prop := ∀ c ∈ rest.head?, isBlank c ∨ c = ',' ∨ c = ']' ∨ c = '\x7d'

theorem isBlank_iff {c : Char} : isBlank c ↔ c = ' ' ∨ c = '\t' ∨ c = '\n' ∨ c = '\r' := by
  simp [isBlank, or_assoc]

/-- What follows a value does not continue a number. -/
theorem Follows.stops (h : Follows rest) {c : Char} (hc : c ∈ rest.head?) :
    c.isDigit = false ∧ c ≠ '.' ∧ c ≠ 'e' ∧ c ≠ 'E' := by
  have hcases := h c hc
  rw [isBlank_iff] at hcases
  rcases hcases with (rfl | rfl | rfl | rfl) | rfl | rfl | rfl <;> decide

/-- Blanks, and what continues or closes an array or object, follow a value. -/
theorem follows_append {blanks : List Char} {c : Char} (hblanks : Blanks blanks) (hc : c = ',' ∨ c = ']' ∨ c = '\x7d') :
    Follows (blanks ++ c :: rest) := by
  rintro d hd
  rcases blanks with _ | ⟨b, blanks⟩
  · obtain rfl := Option.some.inj hd
    exact Or.inr hc
  · obtain rfl := Option.some.inj hd
    exact Or.inl (hblanks b List.mem_cons_self)

/-! ## Numbers -/

theorem readFraction_run {fraction : List Char} (hdigits : Digits fraction)
    (hrest : ∀ c ∈ rest.head?, c.isDigit = false ∧ c ≠ '.') :
    readFraction ((if fraction = [] then [] else '.' :: fraction) ++ rest) = some (fraction, rest) := by
  unfold readFraction
  by_cases hnil : fraction = []
  · rw [if_pos hnil, List.nil_append, bind_run (accept_run_of_ne fun c hc => (hrest c hc).2), hnil]
    rfl
  · rw [if_neg hnil, List.cons_append, bind_run (accept_run '.' _), if_pos rfl]
    exact takeWhile1_run hnil hdigits fun c hc => (hrest c hc).1

theorem digits_of_readFraction {fraction : List Char} (h : readFraction text = some (fraction, rest)) :
    Digits fraction ∧ text = (if fraction = [] then [] else '.' :: fraction) ++ rest := by
  obtain ⟨found, mid, hfound, hmore⟩ := bind_eq_some_iff.mp h
  rcases accept_eq_some hfound with ⟨rfl, rfl⟩ | ⟨rfl, rfl⟩
  · obtain ⟨rfl, hne, hdigits⟩ := takeWhile1_eq_some hmore
    exact ⟨hdigits, by rw [if_neg hne]; rfl⟩
  · obtain ⟨rfl, rfl⟩ := pure_eq_some_iff.mp hmore
    exact ⟨digits_nil, rfl⟩

/-- Digits that end where no digit follows. -/
theorem digits_head_ne {digits : List Char} (hdigits : Digits digits) (hne : digits ≠ []) {d : Char}
    (hd : d.isDigit = false) : ∀ c ∈ (digits ++ rest).head?, c ≠ d := by
  obtain ⟨first, more, rfl⟩ := List.exists_cons_of_ne_nil hne
  rintro c hc rfl
  obtain rfl : first = c := Option.some.inj hc
  rw [hdigits first List.mem_cons_self] at hd
  cases hd

theorem readExponent_run {exponent : Option Int} (h : WrittenExponent exponent text)
    (hrest : ∀ c ∈ rest.head?, c.isDigit = false ∧ c ≠ 'e' ∧ c ≠ 'E') :
    readExponent (text ++ rest) = some (exponent, rest) := by
  unfold readExponent
  have hmarked {mark : Char} (hmark : mark = 'e' ∨ mark = 'E') : (mark == 'e' || mark == 'E') = true := by
    simpa using hmark
  have htake {digits : List Char} (hdigits : Digits digits) (hne : digits ≠ []) :=
    takeWhile1_run hne hdigits fun c hc => (hrest c hc).1
  cases h with
  | none =>
    have hnone : ∀ c ∈ rest.head?, (c == 'e' || c == 'E') = false := fun c hc => by
      simpa using (hrest c hc).2
    rw [List.nil_append, bind_run (acceptIf_run_of_ne hnone)]
    rfl
  | @positive mark sign digits hmark hsign hdigits hne =>
    rw [List.cons_append, bind_run (acceptIf_run (hmarked hmark) _), if_pos rfl, List.append_assoc]
    rcases hsign with rfl | rfl
    · rw [List.nil_append, bind_run (accept_run_of_ne (digits_head_ne hdigits hne (by decide)))]
      dsimp only
      rw [if_pos (by decide), bind_run (accept_run_of_ne (digits_head_ne hdigits hne (by decide))),
        bind_run (htake hdigits hne)]
      rfl
    · rw [bind_run (accept_run_of_ne (by simp))]
      dsimp only
      rw [if_pos (by decide)]
      rw [List.cons_append, List.nil_append, bind_run (accept_run '+' _), bind_run (htake hdigits hne)]
      rfl
  | @negative mark digits hmark hdigits hne =>
    rw [List.cons_append, bind_run (acceptIf_run (hmarked hmark) _), if_pos rfl, List.cons_append,
      bind_run (accept_run '-' _)]
    dsimp only
    rw [if_neg (by decide), bind_run (htake hdigits hne)]
    rfl

theorem writtenExponent_of_readExponent {exponent : Option Int} (h : readExponent text = some (exponent, rest)) :
    ∃ w, WrittenExponent exponent w ∧ text = w ++ rest := by
  obtain ⟨found, afterMark, hfound, hbody⟩ := bind_eq_some_iff.mp h
  rcases acceptIf_eq_some hfound with ⟨rfl, mark, hmark, rfl⟩ | ⟨rfl, rfl⟩
  · have hmark : mark = 'e' ∨ mark = 'E' := by simpa using hmark
    obtain ⟨negative, afterSign, hnegative, hsigned⟩ := bind_eq_some_iff.mp hbody
    rcases accept_eq_some hnegative with ⟨rfl, rfl⟩ | ⟨rfl, rfl⟩
    · obtain ⟨digits, left, htake, hvalue⟩ := bind_eq_some_iff.mp hsigned
      obtain ⟨rfl, hne, hdigits⟩ := takeWhile1_eq_some htake
      obtain ⟨rfl, rfl⟩ := pure_eq_some_iff.mp hvalue
      exact ⟨_, .negative hmark hdigits hne, rfl⟩
    · obtain ⟨plus, afterPlus, hplus, hunsigned⟩ := bind_eq_some_iff.mp hsigned
      obtain ⟨digits, left, htake, hvalue⟩ := bind_eq_some_iff.mp hunsigned
      obtain ⟨rfl, hne, hdigits⟩ := takeWhile1_eq_some htake
      obtain ⟨rfl, rfl⟩ := pure_eq_some_iff.mp hvalue
      rcases accept_eq_some hplus with ⟨-, rfl⟩ | ⟨-, rfl⟩
      · exact ⟨_, .positive hmark (Or.inr rfl) hdigits hne, rfl⟩
      · exact ⟨_, .positive hmark (Or.inl rfl) hdigits hne, rfl⟩
  · obtain ⟨rfl, rfl⟩ := pure_eq_some_iff.mp hbody
    exact ⟨[], .none, rfl⟩

/-- A whole part of several digits does not start with zero. -/
theorem isWhole_iff {whole : List Char} :
    IsWhole whole ↔ Digits whole ∧ whole ≠ [] ∧ ¬ (whole.head? = some '0' ∧ 1 < whole.length) := by
  constructor
  · intro h
    refine ⟨h.digits, h.ne_nil, ?_⟩
    rintro ⟨hhead, hlength⟩
    rcases h with rfl | ⟨first, digits, -, hzero, -, rfl⟩
    · simp at hlength
    · exact hzero (Option.some.inj hhead)
  · rintro ⟨hdigits, hne, hzero⟩
    obtain ⟨first, digits, rfl⟩ := List.exists_cons_of_ne_nil hne
    obtain ⟨hfirst, hdigits⟩ := digits_cons.mp hdigits
    by_cases hfirst0 : first = '0'
    · subst hfirst0
      rcases digits with _ | ⟨d, digits⟩
      · exact Or.inl rfl
      · exact absurd ⟨rfl, by simp⟩ hzero
    · exact Or.inr ⟨first, digits, hfirst, hfirst0, hdigits, rfl⟩

/-- An exponent is followed by what follows the number; it does not start like a fraction. -/
theorem WrittenExponent.head {exponent : Option Int} (h : WrittenExponent exponent text) (hrest : Follows rest)
    {c : Char} (hc : c ∈ (text ++ rest).head?) : c.isDigit = false ∧ c ≠ '.' := by
  cases h with
  | none => exact ⟨(hrest.stops hc).1, (hrest.stops hc).2.1⟩
  | positive hmark =>
    obtain rfl := Option.some.inj hc
    rcases hmark with rfl | rfl <;> decide
  | negative hmark =>
    obtain rfl := Option.some.inj hc
    rcases hmark with rfl | rfl <;> decide

theorem readNumber_run {n : Number} (h : WrittenNumber n text) (hrest : Follows rest) :
    readNumber (text ++ rest) = some (n, rest) := by
  obtain ⟨hwhole, hfraction, exponent, hexponent, rfl⟩ := h
  obtain ⟨hdigits, hne, hzero⟩ := isWhole_iff.mp hwhole
  have hsign (more : List Char) : accept '-' (signText n.negative ++ (n.whole ++ more)) =
      some (n.negative, n.whole ++ more) := by
    cases n.negative with
    | true => exact accept_run '-' _
    | false => exact accept_run_of_ne (digits_head_ne hdigits hne (by decide))
  have hpoint : ∀ c ∈ ((if n.fraction = [] then [] else '.' :: n.fraction) ++ (exponent ++ rest)).head?,
      c.isDigit = false := fun c hc => by
    split at hc
    · exact (hexponent.head hrest hc).1
    · obtain rfl := Option.some.inj hc
      rfl
  simp only [List.append_assoc]
  rw [readNumber, bind_run (hsign _), bind_run (takeWhile1_run hne hdigits hpoint)]
  dsimp only
  rw [if_neg hzero, bind_run (readFraction_run hfraction fun c hc => hexponent.head hrest hc),
    bind_run (readExponent_run hexponent fun c hc => ⟨(hrest.stops hc).1, (hrest.stops hc).2.2⟩)]
  rfl

theorem writtenNumber_of_readNumber {n : Number} (h : readNumber text = some (n, rest)) :
    ∃ w, WrittenNumber n w ∧ text = w ++ rest := by
  obtain ⟨negative, afterSign, hsign, hunsigned⟩ := bind_eq_some_iff.mp h
  obtain ⟨whole, afterWhole, htake, hchecked⟩ := bind_eq_some_iff.mp hunsigned
  obtain ⟨rfl, hne, hdigits⟩ := takeWhile1_eq_some htake
  dsimp only at hchecked
  split at hchecked
  · cases hchecked
  · rename_i hzero
    obtain ⟨fraction, afterFraction, hpoint, hmore⟩ := bind_eq_some_iff.mp hchecked
    obtain ⟨exponent, left, hmark, hvalue⟩ := bind_eq_some_iff.mp hmore
    obtain ⟨rfl, rfl⟩ := pure_eq_some_iff.mp hvalue
    obtain ⟨hfraction, rfl⟩ := digits_of_readFraction hpoint
    obtain ⟨w, hexponent, rfl⟩ := writtenExponent_of_readExponent hmark
    refine ⟨_, ⟨isWhole_iff.mpr ⟨hdigits, hne, hzero⟩, hfraction, w, hexponent, rfl⟩, ?_⟩
    rcases accept_eq_some hsign with ⟨rfl, rfl⟩ | ⟨rfl, rfl⟩
    · simp [signText]
    · simp [signText]

end Keypad.Json
