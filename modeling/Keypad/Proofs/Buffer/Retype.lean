import Keypad.Proofs.Buffer.Layout
import Keypad.Proofs.Evaluator
import Mathlib.Data.List.TakeWhile

/-!
# Keypad.Proofs.Buffer.Retype — the text of an expression, typed again

The tokens of a buffer depend on how it came about: a carried number is a single literal, a typed one has its point as
a token of its own.  Its text leaves that open, and so does its value.

* `Buffer.typeChar?`, `Buffer.typeText?`: a character and a text that are typed, if no key is refused.
* `numberTokens`: the tokens that typing a number makes; `typeText?_number`: typing makes them.
* `Plain`: no literal has a point; `IsRun.numberTokens_eq`: such a number has the tokens that typing it makes.
* `Retyped`: what typing the text of tokens makes of an empty buffer, one lemma for each part of a layout.
* `Layout.retyped`: an expression without a minus sign can be typed, and comes out with the same runs.
-/

namespace Keypad

open Decimal

/-! ## Typing -/

/-- The literal of digits, if there are any. -/
def literalTokens (digits : List Char) : List Token := if digits = [] then [] else [.literal digits]

/-- The tokens that typing a number makes. -/
def numberTokens (text : List Char) : List Token :=
  match text.dropWhile (· != '.') with
  | [] => literalTokens (text.takeWhile (· != '.'))
  | _ :: places => literalTokens (text.takeWhile (· != '.')) ++ .dot :: literalTokens places

namespace Buffer

/-- The buffer after a digit, a point, or a symbol of an operator is typed. -/
def typeChar? (b : Buffer) (c : Char) : Option Buffer :=
  if c.isDigit then b.pushDigit? c
  else if c = '.' then b.pushDot?
  else (Operator.ofChar? c).bind b.pushOperator?

/-- The buffer after a text is typed, if no character is refused. -/
def typeText? (b : Buffer) (text : List Char) : Option Buffer := text.foldlM typeChar? b

variable {b b' : Buffer} {below : List Token} {c d : Char}

theorem typeChar?_digit (h : d.isDigit) : b.typeChar? d = b.pushDigit? d := if_pos h

theorem typeChar?_dot : b.typeChar? '.' = b.pushDot? := rfl

theorem typeChar?_symbol (op : Operator) : b.typeChar? op.symbol = b.pushOperator? op := by
  rw [typeChar?, if_neg (Bool.eq_false_iff.mp op.isDigit_symbol), if_neg op.symbol_ne_point, Operator.ofChar?_symbol,
    Option.bind_some]

theorem typeText?_nil : b.typeText? [] = some b := rfl

theorem typeText?_cons {text : List Char} (h : b.typeChar? c = some b') :
    b.typeText? (c :: text) = b'.typeText? text := by
  rw [typeText?, List.foldlM_cons, h]
  rfl

theorem typeText?_append {text more : List Char} (h : b.typeText? text = some b') :
    b.typeText? (text ++ more) = b'.typeText? more := by
  rw [typeText?, List.foldlM_append]
  exact congrArg (Option.bind · _) h

/-! ## Digits -/

theorem trailing_cons {t : Token} (h : t.isOperator = false) :
    (⟨t :: below⟩ : Buffer).trailing = t :: (⟨below⟩ : Buffer).trailing := by
  rw [trailing, List.takeWhile_cons_of_pos (by rw [h]; rfl), trailing]

theorem currentNumber_cons {t : Token} (h : t.isOperator = false) :
    (⟨t :: below⟩ : Buffer).currentNumber = (⟨below⟩ : Buffer).currentNumber ++ t.text := by
  rw [currentNumber, trailing_cons h, List.reverse_cons, List.flatMap_append, currentNumber, List.flatMap_singleton]

theorem currentWidth_cons {t : Token} (h : t.isOperator = false) :
    (⟨t :: below⟩ : Buffer).currentWidth = (⟨below⟩ : Buffer).currentWidth + t.text.length := by
  rw [currentWidth_eq, currentNumber_cons h, List.length_append, currentWidth_eq]

/-- A digit after a point or an operator, or at the start, is a literal of its own. -/
theorem pushDigit?_first (hhead : ∀ text, below.head? ≠ some (.literal text))
    (hroom : (⟨below⟩ : Buffer).currentWidth < displayWidth) (d : Char) :
    (⟨below⟩ : Buffer).pushDigit? d = some ⟨.literal [d] :: below⟩ := by
  have hzero : (⟨below⟩ : Buffer).trailing ≠ [.literal ['0']] := by
    intro h
    rcases below with _ | ⟨t, rest⟩
    · cases h
    · cases t with
      | literal text => exact hhead text rfl
      | dot => rw [trailing_cons rfl] at h; cases h
      | operator op => cases h
  have hdigit : appendDigit d below = .literal [d] :: below := by
    rcases below with _ | ⟨t, rest⟩
    · rfl
    · cases t with
      | literal text => exact absurd rfl (hhead text)
      | dot => rfl
      | operator op => rfl
  rw [pushDigit?, if_neg (Nat.not_le.mpr hroom), dropLoneZero, if_neg hzero]
  exact congrArg (fun stack => some (Buffer.mk stack)) hdigit

/-- A digit after another one joins its literal, unless that is a lone zero. -/
theorem pushDigit?_literal {text : List Char} (hzero : (⟨.literal text :: below⟩ : Buffer).trailing ≠ [.literal ['0']])
    (hroom : (⟨.literal text :: below⟩ : Buffer).currentWidth < displayWidth) (d : Char) :
    (⟨.literal text :: below⟩ : Buffer).pushDigit? d = some ⟨.literal (text ++ [d]) :: below⟩ := by
  rw [pushDigit?, if_neg (Nat.not_le.mpr hroom), dropLoneZero, if_neg hzero]
  rfl

theorem typeText?_digits {digits : List Char} (hdigits : Digits digits) : ∀ {text : List Char}, text ≠ [] →
    (⟨.literal text :: below⟩ : Buffer).trailing ≠ [.literal ['0']] →
    (⟨.literal text :: below⟩ : Buffer).currentWidth + digits.length ≤ displayWidth →
    (⟨.literal text :: below⟩ : Buffer).typeText? digits = some ⟨.literal (text ++ digits) :: below⟩ := by
  induction digits with
  | nil => intro text _ _ _; rw [List.append_nil, typeText?_nil]
  | cons d digits ih =>
    intro text hne hzero hfits
    obtain ⟨hd, hdigits⟩ := digits_cons.mp hdigits
    rw [List.length_cons] at hfits
    have hpush := pushDigit?_literal hzero (by omega) d
    have hwidth : (⟨.literal (text ++ [d]) :: below⟩ : Buffer).currentWidth =
        (⟨.literal text :: below⟩ : Buffer).currentWidth + 1 := by
      rw [currentWidth_cons rfl, currentWidth_cons rfl, Token.text, Token.text, List.length_append,
        List.length_singleton, Nat.add_assoc]
    -- two digits are no lone zero
    have hzero' : (⟨.literal (text ++ [d]) :: below⟩ : Buffer).trailing ≠ [.literal ['0']] := by
      rw [trailing_cons rfl]
      intro h
      obtain ⟨htext, -⟩ := List.cons_eq_cons.mp h
      have hlength := congrArg List.length (Token.literal.inj htext)
      rw [List.length_append, List.length_singleton, List.length_singleton] at hlength
      exact hne (List.eq_nil_of_length_eq_zero (by omega))
    rw [typeText?_cons ((typeChar?_digit hd).trans hpush), ih hdigits (by simp) hzero' (by omega),
      List.append_assoc, List.singleton_append]

/-! ## Numbers -/

theorem typeText?_whole {whole : List Char} (h : IsWhole whole) (hstart : (⟨below⟩ : Buffer).trailing = [])
    (hfits : whole.length ≤ displayWidth) :
    (⟨below⟩ : Buffer).typeText? whole = some ⟨.literal whole :: below⟩ := by
  have hhead : ∀ text, below.head? ≠ some (.literal text) := by
    intro text h
    obtain ⟨rest, rfl⟩ := List.head?_eq_some_iff.mp h
    rw [trailing_cons rfl] at hstart
    cases hstart
  have hempty : (⟨below⟩ : Buffer).currentWidth = 0 := by rw [currentWidth, hstart]; rfl
  have hfirst {d : Char} (hd : d.isDigit) : (⟨below⟩ : Buffer).typeChar? d = some ⟨.literal [d] :: below⟩ := by
    rw [typeChar?_digit hd, pushDigit?_first hhead (by rw [hempty]; decide)]
  rcases h with rfl | ⟨d, digits, hd, hzero, hdigits, rfl⟩
  · exact typeText?_cons (hfirst (by decide))
  · have htrailing : (⟨.literal [d] :: below⟩ : Buffer).trailing ≠ [.literal ['0']] := by
      rw [trailing_cons rfl, hstart]
      simpa using hzero
    have hwidth : (⟨.literal [d] :: below⟩ : Buffer).currentWidth = 1 := by
      rw [currentWidth_cons rfl, hempty]
      rfl
    rw [typeText?_cons (hfirst hd), typeText?_digits hdigits (List.cons_ne_nil d []) htrailing]
    · rfl
    · rw [hwidth, Nat.add_comm]
      exact hfits

/-- A point after digits. -/
theorem pushDot?_literal {text : List Char} (hstart : (⟨below⟩ : Buffer).trailing = []) (hne : text ≠ [])
    (hdot : '.' ∉ text) (hroom : text.length < displayWidth) :
    (⟨.literal text :: below⟩ : Buffer).pushDot? = some ⟨.dot :: .literal text :: below⟩ := by
  have hwidth : (⟨.literal text :: below⟩ : Buffer).currentWidth = text.length := by
    rw [currentWidth_cons rfl, currentWidth, hstart]
    exact Nat.zero_add _
  have hunused : ¬ (⟨.literal text :: below⟩ : Buffer).dotUsed = true := by
    rw [dotUsed, trailing_cons rfl, hstart]
    simpa [Token.hasDot] using hdot
  rw [pushDot?, if_neg hunused, hwidth, if_neg (mt List.eq_nil_of_length_eq_zero hne), if_neg (by omega)]

theorem typeText?_fraction {whole places : List Char} (hstart : (⟨below⟩ : Buffer).trailing = [])
    (hwhole : IsWhole whole) (hplaces : Digits places) (hfits : whole.length + (places.length + 1) ≤ displayWidth) :
    (⟨.literal whole :: below⟩ : Buffer).typeText? ('.' :: places) =
      some ⟨literalTokens places ++ .dot :: .literal whole :: below⟩ := by
  have hdot := pushDot?_literal hstart hwhole.ne_nil hwhole.digits.not_mem_dot (by omega)
  have hwidth : (⟨.dot :: .literal whole :: below⟩ : Buffer).currentWidth = whole.length + 1 := by
    rw [currentWidth_cons rfl, currentWidth_cons rfl, currentWidth, hstart]
    exact congrArg (· + 1) (Nat.zero_add _)
  rw [typeText?_cons (typeChar?_dot.trans hdot)]
  rcases places with _ | ⟨d, places⟩
  · rfl
  · obtain ⟨hd, hplaces⟩ := digits_cons.mp hplaces
    rw [List.length_cons] at hfits
    have hfirst : (⟨.dot :: .literal whole :: below⟩ : Buffer).pushDigit? d =
        some ⟨.literal [d] :: .dot :: .literal whole :: below⟩ := pushDigit?_first (by simp) (by omega) d
    have hwidth' : (⟨.literal [d] :: .dot :: .literal whole :: below⟩ : Buffer).currentWidth = whole.length + 2 := by
      rw [currentWidth_cons rfl, hwidth]
      rfl
    have htrailing : (⟨.literal [d] :: .dot :: .literal whole :: below⟩ : Buffer).trailing ≠ [.literal ['0']] := by
      rw [trailing_cons rfl, trailing_cons rfl]
      simp
    rw [typeText?_cons ((typeChar?_digit hd).trans hfirst), typeText?_digits hplaces (List.cons_ne_nil d []) htrailing
      (by omega), literalTokens, if_neg (List.cons_ne_nil d places)]
    rfl

end Buffer

section Number

variable {whole places text : List Char} {run : List Token}

theorem literalTokens_of_ne (h : whole ≠ []) : literalTokens whole = [.literal whole] := if_neg h

theorem numberTokens_whole (hdot : '.' ∉ whole) : numberTokens whole = literalTokens whole := by
  have hall : ∀ c ∈ whole, (c != '.') = true := fun c hc => bne_iff_ne.mpr fun h => hdot (h ▸ hc)
  rw [numberTokens, List.dropWhile_eq_nil_iff.mpr hall, List.takeWhile_eq_self_iff.mpr hall]

theorem numberTokens_fraction (hdot : '.' ∉ whole) (places : List Char) :
    numberTokens (whole ++ '.' :: places) = literalTokens whole ++ .dot :: literalTokens places := by
  have hall : ∀ c ∈ whole, (c != '.') = true := fun c hc => bne_iff_ne.mpr fun h => hdot (h ▸ hc)
  rw [numberTokens, List.dropWhile_append_of_pos hall, List.takeWhile_append_of_pos hall]
  simp

/-- A number is spelled by its digits in front, or by these with a point and the digits after it. -/
theorem numberTokens_cases (h : IsUnsigned text) : ∃ whole, IsWhole whole ∧
    ((text = whole ∧ numberTokens text = [.literal whole]) ∨
      ∃ places, Digits places ∧ text = whole ++ '.' :: places ∧
        numberTokens text = .literal whole :: .dot :: literalTokens places) := by
  obtain ⟨whole, fraction, hwhole, hfraction, rfl⟩ := h
  have hdot := hwhole.digits.not_mem_dot
  refine ⟨whole, hwhole, ?_⟩
  rcases hfraction with rfl | ⟨places, hplaces, rfl⟩
  · rw [List.append_nil, numberTokens_whole hdot, literalTokens_of_ne hwhole.ne_nil]
    exact Or.inl ⟨rfl, rfl⟩
  · rw [numberTokens_fraction hdot, literalTokens_of_ne hwhole.ne_nil]
    exact Or.inr ⟨places, hplaces, rfl, rfl⟩

theorem isRun_numberTokens (h : IsUnsigned text) : IsRun (numberTokens text) := by
  obtain ⟨whole, hwhole, ⟨-, htokens⟩ | ⟨places, -, -, htokens⟩⟩ := numberTokens_cases h
  · rw [htokens]
    exact .whole hwhole.ne_nil
  · rw [htokens, literalTokens]
    by_cases hplaces : places = []
    · rw [if_pos hplaces]
      exact .point hwhole.ne_nil
    · rw [if_neg hplaces]
      exact .places hwhole.ne_nil hplaces

theorem text_numberTokens (h : IsUnsigned text) : (numberTokens text).flatMap Token.text = text := by
  obtain ⟨whole, -, ⟨htext, htokens⟩ | ⟨places, -, htext, htokens⟩⟩ := numberTokens_cases h
  · rw [htokens, htext, List.flatMap_singleton, Token.text]
  · rw [htokens, htext, literalTokens]
    by_cases hplaces : places = []
    · rw [if_pos hplaces, hplaces]
      simp [Token.text]
    · rw [if_neg hplaces]
      simp [Token.text]

/-- **A number** that fits the display can be typed wherever a number starts. -/
theorem Buffer.typeText?_number {below : List Token} (hstart : (⟨below⟩ : Buffer).trailing = []) (h : IsTyped text) :
    (⟨below⟩ : Buffer).typeText? text = some ⟨(numberTokens text).reverse ++ below⟩ := by
  obtain ⟨hunsigned, hfits⟩ := h
  obtain ⟨whole, hwhole, ⟨rfl, htokens⟩ | ⟨places, hplaces, rfl, htokens⟩⟩ := numberTokens_cases hunsigned
  · rw [htokens]
    exact typeText?_whole hwhole hstart hfits
  · rw [List.length_append, List.length_cons] at hfits
    rw [htokens, typeText?_append (typeText?_whole hwhole hstart (by omega)),
      typeText?_fraction hstart hwhole hplaces hfits, literalTokens]
    by_cases hnil : places = []
    · rw [if_pos hnil]
      rfl
    · rw [if_neg hnil]
      rfl

example : ({} : Buffer).typeText? "12.5×0.".toList =
    some ⟨[.dot, .literal ['0'], .operator .multiply, .literal ['5'], .dot, .literal ['1', '2']]⟩ := by decide

/-- No literal has a point: what is typed, not carried. -/
def Plain (tokens : List Token) : Prop := ∀ text, .literal text ∈ tokens → Digits text

theorem IsRun.numberTokens_eq (h : IsRun run) (hplain : Plain run) : numberTokens (run.flatMap Token.text) = run := by
  cases h with
  | @whole a ha =>
    have hdot : '.' ∉ a := (hplain a (by simp)).not_mem_dot
    rw [List.flatMap_singleton, Token.text, numberTokens_whole hdot, literalTokens_of_ne ha]
  | @point a ha =>
    have hdot : '.' ∉ a := (hplain a (by simp)).not_mem_dot
    show numberTokens (a ++ '.' :: []) = _
    rw [numberTokens_fraction hdot, literalTokens_of_ne ha]
    rfl
  | @places a b ha hb =>
    have hdot : '.' ∉ a := (hplain a (by simp)).not_mem_dot
    have htext : [Token.literal a, .dot, .literal b].flatMap Token.text = a ++ '.' :: b := by simp [Token.text]
    rw [htext, numberTokens_fraction hdot, literalTokens_of_ne ha, literalTokens_of_ne hb]
    rfl

end Number

/-! ## Plain buffers -/

section Plain

variable {stack : List Token} {b b' : Buffer} {a : List Char}

theorem Plain.of_subset {tokens : List Token} (h : Plain tokens) (hsub : stack ⊆ tokens) : Plain stack :=
  fun text htext => h text (hsub htext)

theorem Plain.cons_literal (h : Plain stack) (ha : Digits a) : Plain (.literal a :: stack) := by
  intro text htext
  rcases List.mem_cons.mp htext with heq | htext
  · exact Token.literal.inj heq ▸ ha
  · exact h text htext

theorem Plain.cons_dot (h : Plain stack) : Plain (.dot :: stack) :=
  fun text htext => h text ((List.mem_cons.mp htext).resolve_left nofun)

theorem Plain.cons_operator (h : Plain stack) (op : Operator) : Plain (.operator op :: stack) :=
  fun text htext => h text ((List.mem_cons.mp htext).resolve_left nofun)

theorem Plain.appendDigit {d : Char} (h : Plain stack) (hd : d.isDigit) : Plain (Buffer.appendDigit d stack) := by
  have hdigit : Digits [d] := digits_cons.mpr ⟨hd, digits_nil⟩
  unfold Buffer.appendDigit
  split
  · rename_i a rest
    have hrest : Plain rest := h.of_subset (List.subset_cons_self _ _)
    exact hrest.cons_literal (digits_append.mpr ⟨h a List.mem_cons_self, hdigit⟩)
  · exact h.cons_literal hdigit

theorem Plain.pushDigit? {d : Char} (h : Plain b.stack) (hd : d.isDigit) (hpush : b.pushDigit? d = some b') :
    Plain b'.stack := by
  unfold Buffer.pushDigit? at hpush
  split at hpush
  · simp at hpush
  · obtain rfl := Option.some.inj hpush
    refine Plain.appendDigit (h.of_subset ?_) hd
    unfold Buffer.dropLoneZero
    split
    · exact (List.tail_sublist _).subset
    · exact List.Subset.refl _

theorem Plain.pushDot? (h : Plain b.stack) (hpush : b.pushDot? = some b') : Plain b'.stack := by
  have hzero : Plain (.literal ['0'] :: b.stack) := h.cons_literal (digits_cons.mpr ⟨by decide, digits_nil⟩)
  unfold Buffer.pushDot? at hpush
  split_ifs at hpush
  · obtain rfl := Option.some.inj hpush
    exact hzero.cons_dot
  · obtain rfl := Option.some.inj hpush
    exact h.cons_dot

theorem Plain.pushOperator? {op : Operator} (h : Plain b.stack) (hpush : b.pushOperator? op = some b') :
    Plain b'.stack := by
  unfold Buffer.pushOperator? at hpush
  split at hpush
  · cases hpush
  · rename_i old rest hstack
    obtain rfl := Option.some.inj hpush
    exact (h.of_subset (by rw [hstack]; exact List.subset_cons_self _ _)).cons_operator op
  · obtain rfl := Option.some.inj hpush
    exact h.cons_operator op

theorem Plain.pop (h : Plain b.stack) : Plain b.pop.2.stack := by
  obtain ⟨stack⟩ := b
  cases stack with
  | nil => exact h
  | cons t rest =>
    have hrest : Plain rest := h.of_subset (List.subset_cons_self _ _)
    cases t with
    | literal a =>
      show Plain (if 1 < a.length then _ else _ : Option Char × Buffer).2.stack
      split
      · exact hrest.cons_literal ((h a List.mem_cons_self).of_isPrefix (List.dropLast_prefix a))
      · exact hrest
    | dot => exact hrest
    | operator op => exact hrest

end Plain

/-! ## Runs -/

/-- The texts of all operands. -/
def Runs.texts (r : Runs) : List (List Char) := r.first :: r.rest.map Prod.snd

section Expression

variable {tokens typed before run : List Token} {text : List Char}

/-- The tokens of a number count by their text only. -/
theorem foldr_cons_run (h : ∀ t ∈ run, t.isOperator = false) (r : Runs) :
    run.foldr Runs.cons r = ⟨run.flatMap Token.text ++ r.first, r.rest⟩ := by
  induction run with
  | nil => rfl
  | cons t run ih =>
    obtain ⟨ht, hrun⟩ := List.forall_mem_cons.mp h
    rw [List.foldr_cons, ih hrun, List.flatMap_cons, List.append_assoc]
    cases t with
    | literal a => rfl
    | dot => rfl
    | operator op => cases ht

/-- What is closed adds operands in front of what follows, and changes none of these. -/
theorem Closed.texts_foldr (h : Closed before) :
    ∃ texts, ∀ r : Runs, (before.foldr Runs.cons r).texts = texts ++ r.texts := by
  induction h with
  | start => exact ⟨[], fun _ => rfl⟩
  | @operator before run op _ hrun ih =>
    obtain ⟨texts, htexts⟩ := ih
    refine ⟨texts ++ [run.flatMap Token.text], fun r => ?_⟩
    rw [List.foldr_append, List.foldr_append, foldr_cons_run hrun.shape.isOperator, htexts, List.append_assoc]
    simp [Runs.texts, Runs.cons]

/-- Without a sign, a number that fits the display can be typed. -/
theorem OperandText.isTyped (h : OperandText before text) (hdash : '-' ∉ text) (hfits : text.length ≤ displayWidth) :
    IsTyped text := by
  refine ⟨?_, hfits⟩
  rcases h.isCarried.1 with h | ⟨whole, fraction, -, -, rfl⟩
  · exact h
  · exact absurd List.mem_cons_self hdash

theorem IsOperand.isTyped (hbefore : Closed before) (hrun : IsOperand before run) {r : Runs} (hr : r.first = [])
    (hdash : '-' ∉ run.flatMap Token.text)
    (hfits : ∀ text ∈ (before.foldr Runs.cons (run.foldr Runs.cons r)).texts, text.length ≤ displayWidth) :
    IsTyped (run.flatMap Token.text) := by
  obtain ⟨texts, htexts⟩ := hbefore.texts_foldr
  refine hrun.text.isTyped hdash (hfits _ ?_)
  rw [htexts, foldr_cons_run hrun.shape.isOperator, hr, List.append_nil]
  exact List.mem_append_right texts List.mem_cons_self

/-! ## Expressions -/

/-- What typing the text of tokens makes of an empty buffer. -/
structure Retyped (tokens typed : List Token) : Prop where
  typing : ({} : Buffer).typeText? (tokens.flatMap Token.text) = some ⟨typed.reverse⟩
  text : typed.flatMap Token.text = tokens.flatMap Token.text
  runs : ∀ r, typed.foldr Runs.cons r = tokens.foldr Runs.cons r
  plain : Plain tokens → typed = tokens

theorem Retyped.nil : Retyped [] [] := ⟨rfl, rfl, fun _ => rfl, fun _ => rfl⟩

theorem Retyped.number (h : Retyped before typed) (hstart : (⟨typed.reverse⟩ : Buffer).trailing = [])
    (hrun : IsRun run) (htext : IsTyped (run.flatMap Token.text)) :
    Retyped (before ++ run) (typed ++ numberTokens (run.flatMap Token.text)) where
  typing := by
    rw [List.flatMap_append, Buffer.typeText?_append h.typing, Buffer.typeText?_number hstart htext,
      List.reverse_append]
  text := by rw [List.flatMap_append, List.flatMap_append, h.text, text_numberTokens htext.1]
  runs := by
    intro r
    rw [List.foldr_append, List.foldr_append, h.runs, foldr_cons_run hrun.isOperator,
      foldr_cons_run (isRun_numberTokens htext.1).isOperator, text_numberTokens htext.1]
  plain := by
    intro hplain
    have hbefore : Plain before := fun a ha => hplain a (List.mem_append_left run ha)
    have hnumber : Plain run := fun a ha => hplain a (List.mem_append_right before ha)
    rw [h.plain hbefore, hrun.numberTokens_eq hnumber]

theorem Retyped.operator (h : Retyped before typed) (hrun : IsRun run) (op : Operator)
    (hlast : run.reverse <+: typed.reverse) : Retyped (before ++ [.operator op]) (typed ++ [.operator op]) where
  typing := by
    have hpush : (⟨typed.reverse⟩ : Buffer).pushOperator? op = some ⟨.operator op :: typed.reverse⟩ := by
      obtain ⟨below, hbelow⟩ := hlast
      rw [← hbelow]
      cases hrun <;> rfl
    have htext : [Token.operator op].flatMap Token.text = [op.symbol] := rfl
    rw [List.flatMap_append, Buffer.typeText?_append h.typing, htext,
      Buffer.typeText?_cons ((Buffer.typeChar?_symbol op).trans hpush), Buffer.typeText?_nil, List.reverse_append]
    rfl
  text := by rw [List.flatMap_append, List.flatMap_append, h.text]
  runs := by
    intro r
    rw [List.foldr_append, List.foldr_append, h.runs]
  plain := by
    intro hplain
    rw [h.plain fun a ha => hplain a (List.mem_append_left _ ha)]

/-- Operands with operators after them can be typed, each where the one before it ends. -/
theorem Closed.retyped (h : Closed before) : ∀ r : Runs, '-' ∉ before.flatMap Token.text →
    (∀ text ∈ (before.foldr Runs.cons r).texts, text.length ≤ displayWidth) →
    ∃ typed, Retyped before typed ∧ (⟨typed.reverse⟩ : Buffer).trailing = [] := by
  induction h with
  | start => exact fun _ _ _ => ⟨[], .nil, rfl⟩
  | @operator before run op hbefore hrun ih =>
    intro r hdash hfits
    rw [List.flatMap_append, List.flatMap_append, List.mem_append, List.mem_append, not_or, not_or] at hdash
    obtain ⟨⟨hdashBefore, hdashRun⟩, -⟩ := hdash
    rw [List.foldr_append, List.foldr_append] at hfits
    obtain ⟨typed, hre, hstart⟩ := ih _ hdashBefore hfits
    have htext := IsOperand.isTyped hbefore hrun rfl hdashRun hfits
    have hnumber := isRun_numberTokens htext.1
    refine ⟨_, (hre.number hstart hrun.shape htext).operator hnumber op ?_, ?_⟩
    · rw [List.reverse_append]
      exact List.prefix_append _ _
    · rw [List.reverse_append]
      rfl

/-- **An expression** without a minus sign whose numbers fit the display can be typed. -/
theorem Layout.retyped (h : Layout tokens) (hdash : '-' ∉ tokens.flatMap Token.text)
    (hfits : ∀ text ∈ (Runs.ofTokens tokens).texts, text.length ≤ displayWidth) : ∃ typed, Retyped tokens typed := by
  obtain ⟨before, run, rfl, hbefore, hrun⟩ := h
  rw [List.flatMap_append, List.mem_append, not_or] at hdash
  rw [Runs.ofTokens, List.foldr_append] at hfits
  obtain ⟨typed, hre, hstart⟩ := hbefore.retyped _ hdash.1 hfits
  rcases hrun with rfl | hrun
  · exact ⟨typed, by rwa [List.append_nil]⟩
  · exact ⟨_, hre.number hstart hrun.shape (IsOperand.isTyped hbefore hrun rfl hdash.2 hfits)⟩

end Expression

end Keypad
