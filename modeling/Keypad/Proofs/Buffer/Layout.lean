import Keypad.Buffer
import Keypad.Proofs.Decimal.Carried

/-!
# Keypad.Proofs.Buffer.Layout — how the tokens of a buffer are laid out

* `IsRun`: the tokens of one number; `OperandText`: what such a number may look like, the first one or a later one.
* `Closed`, `Layout`: operands, each ended by an operator, and one more operand or none.
* `IsRun.appendDigit`, `IsRun.pop`: a key at the end of a run, with the text that it leaves.
* `Layout.pushDigit?`, `Layout.pushDot?`, `Layout.pushOperator?`, `Layout.pop`: every key keeps the layout.
-/

namespace Keypad

open Decimal

/-! ## Operands -/

/-- The tokens of one number: digits, a point after them, digits after the point. -/
inductive IsRun : List Token → Prop
  | whole {a : List Char} (ha : a ≠ []) : IsRun [.literal a]
  | point {a : List Char} (ha : a ≠ []) : IsRun [.literal a, .dot]
  | places {a b : List Char} (ha : a ≠ []) (hb : b ≠ []) : IsRun [.literal a, .dot, .literal b]

/-- A number that is typed: without a sign, and no wider than the display. -/
def IsTyped (text : List Char) : Prop := IsUnsigned text ∧ text.length ≤ displayWidth

/-- A number that continues a carried one: perhaps negative, and wider than the display only as far as it was
carried. -/
def IsCarried (text : List Char) : Prop :=
  (IsUnsigned text ∨ IsNegative text) ∧
    (text.length ≤ displayWidth ∨ ∃ x : Binary64, x.isFinite ∧ text <+: carriedText x)

/-- The text of an operand after the given tokens: only the first one may be carried. -/
def OperandText (before : List Token) (text : List Char) : Prop := IsTyped text ∨ before = [] ∧ IsCarried text

/-- The tokens of one operand. -/
structure IsOperand (before run : List Token) : Prop where
  shape : IsRun run
  points : (run.flatMap Token.text).count '.' ≤ 1
  text : OperandText before (run.flatMap Token.text)

/-- Operands, each with an operator after it. -/
inductive Closed : List Token → Prop
  | start : Closed []
  | operator {before run : List Token} (op : Operator) (hbefore : Closed before) (hrun : IsOperand before run) :
      Closed (before ++ run ++ [.operator op])

/-- Operands with single operators between them; after the last operator there may be none. -/
def Layout (tokens : List Token) : Prop :=
  ∃ before run, tokens = before ++ run ∧ Closed before ∧ (run = [] ∨ IsOperand before run)

/-! ## Texts of operands -/

section OperandText

variable {before : List Token} {text : List Char}

theorem IsTyped.isCarried (h : IsTyped text) : IsCarried text := ⟨Or.inl h.1, Or.inl h.2⟩

theorem OperandText.isCarried (h : OperandText before text) : IsCarried text := by
  rcases h with h | ⟨-, h⟩
  · exact h.isCarried
  · exact h

theorem OperandText.count_dot (h : OperandText before text) : text.count '.' ≤ 1 := by
  rcases h.isCarried.1 with h | h
  · exact h.count_dot
  · exact h.count_dot

theorem operandText_digit (before : List Token) {d : Char} (hd : d.isDigit) : OperandText before [d] :=
  Or.inl ⟨isUnsigned_digit hd, show 1 ≤ displayWidth by decide⟩

theorem operandText_zero_dot (before : List Token) : OperandText before ['0', '.'] :=
  Or.inl ⟨⟨['0'], ['.'], Or.inl rfl, Or.inr ⟨[], digits_nil, rfl⟩, rfl⟩, by decide⟩

theorem OperandText.append_digit {d : Char} (h : OperandText before text) (hzero : text ≠ ['0']) (hd : d.isDigit)
    (hroom : text.length < displayWidth) : OperandText before (text ++ [d]) := by
  have hfits : (text ++ [d]).length ≤ displayWidth := by rw [List.length_append]; exact hroom
  rcases h with h | ⟨hbefore, h⟩
  · exact Or.inl ⟨h.1.append_digit hzero hd, hfits⟩
  · refine Or.inr ⟨hbefore, ?_, Or.inl hfits⟩
    rcases h.1 with h | h
    · exact Or.inl (h.append_digit hzero hd)
    · exact Or.inr (h.append_digit hd)

theorem OperandText.append_dot (h : OperandText before text) (hdot : '.' ∉ text)
    (hroom : text.length < displayWidth) : OperandText before (text ++ ['.']) := by
  have hfits : (text ++ ['.']).length ≤ displayWidth := by rw [List.length_append]; exact hroom
  rcases h with h | ⟨hbefore, h⟩
  · exact Or.inl ⟨h.1.append_dot hdot, hfits⟩
  · refine Or.inr ⟨hbefore, ?_, Or.inl hfits⟩
    rcases h.1 with h | h
    · exact Or.inl (h.append_dot hdot)
    · exact Or.inr (h.append_dot hdot)

theorem IsCarried.of_isPrefix {p : List Char} (h : IsCarried text) (hp : p <+: text) (hne : p ≠ []) : IsCarried p := by
  refine ⟨?_, ?_⟩
  · rcases h.1 with h | h
    · exact Or.inl (h.of_isPrefix hp hne)
    · exact Or.inr (h.of_isPrefix hp hne)
  · rcases h.2 with h | ⟨x, hx, h⟩
    · exact Or.inl (le_trans hp.length_le h)
    · exact Or.inr ⟨x, hx, hp.trans h⟩

theorem OperandText.of_isPrefix {p : List Char} (h : OperandText before text) (hp : p <+: text) (hne : p ≠ []) :
    OperandText before p := by
  rcases h with h | ⟨hbefore, h⟩
  · exact Or.inl ⟨h.1.of_isPrefix hp hne, le_trans hp.length_le h.2⟩
  · exact Or.inr ⟨hbefore, h.of_isPrefix hp hne⟩

theorem isCarried_carriedText {x : Binary64} (hx : x.isFinite) : IsCarried (carriedText x) :=
  ⟨carriedText_form hx, Or.inr ⟨x, hx, List.prefix_refl _⟩⟩

/-- A carried number is read as a finite one, if it is read at all. -/
theorem IsCarried.isFinite {y : Binary64} (h : IsCarried text) (hread : Binary64.read? text = some y) : y.isFinite := by
  rcases h.2 with hfits | ⟨x, hx, hp⟩
  · exact isFinite_of_fits h.1 hfits hread
  · exact isFinite_of_isPrefix_carriedText hx hp hread

end OperandText

/-! ## Runs -/

section Run

variable {before run : List Token}

theorem IsOperand.of_text (hshape : IsRun run) (htext : OperandText before (run.flatMap Token.text)) :
    IsOperand before run :=
  ⟨hshape, htext.count_dot, htext⟩

theorem IsRun.text_ne_nil (h : IsRun run) : run.flatMap Token.text ≠ [] := by
  cases h <;> simp [Token.text, *]

theorem IsRun.isOperator (h : IsRun run) : ∀ t ∈ run, t.isOperator = false := by
  cases h <;> simp [Token.isOperator]

theorem IsRun.eq_zero (h : IsRun run) (htext : run.flatMap Token.text = ['0']) : run = [.literal ['0']] := by
  cases h with
  | whole ha => simpa [Token.text] using htext
  | point ha => simp [Token.text, List.append_eq_cons_iff, ha] at htext
  | places ha hb => simp [Token.text, List.append_eq_cons_iff, ha] at htext

theorem IsRun.appendDigit (h : IsRun run) (d : Char) (below : List Token) :
    ∃ run', IsRun run' ∧ run'.flatMap Token.text = run.flatMap Token.text ++ [d] ∧
      Buffer.appendDigit d (run.reverse ++ below) = run'.reverse ++ below := by
  cases h with
  | @whole a ha => exact ⟨[.literal (a ++ [d])], .whole (by simp), by simp [Token.text], rfl⟩
  | @point a ha => exact ⟨[.literal a, .dot, .literal [d]], .places ha (by simp), by simp [Token.text], rfl⟩
  | @places a b ha hb =>
    exact ⟨[.literal a, .dot, .literal (b ++ [d])], .places ha (by simp), by simp [Token.text], rfl⟩

/-- A point can only be added to the digits in front. -/
theorem IsRun.of_no_dot (h : IsRun run) (hdot : run.any Token.hasDot = false) :
    ∃ a, a ≠ [] ∧ run = [.literal a] ∧ '.' ∉ a := by
  cases h with
  | @whole a ha => exact ⟨a, ha, rfl, by simpa [Token.hasDot] using hdot⟩
  | point ha => simp [Token.hasDot] at hdot
  | places ha hb => simp [Token.hasDot] at hdot

theorem IsRun.pop (h : IsRun run) (below : List Token) :
    ∃ run', (run' = [] ∨ IsRun run') ∧ run'.flatMap Token.text = (run.flatMap Token.text).dropLast ∧
      (⟨run.reverse ++ below⟩ : Buffer).pop.2 = ⟨run'.reverse ++ below⟩ := by
  -- a literal of one character goes as a whole
  have hshort {a : List Char} (hlen : ¬ 1 < a.length) : a.dropLast = [] :=
    List.eq_nil_of_length_eq_zero (by rw [List.length_dropLast]; omega)
  have hlong {a : List Char} (hlen : 1 < a.length) : a.dropLast ≠ [] :=
    List.ne_nil_of_length_pos (by rw [List.length_dropLast]; omega)
  cases h with
  | @whole a ha =>
    show ∃ run', _ ∧ _ ∧ (if 1 < a.length then _ else _ : Option Char × Buffer).2 = _
    by_cases hlen : 1 < a.length
    · exact ⟨[.literal a.dropLast], Or.inr (.whole (hlong hlen)), by simp [Token.text], by rw [if_pos hlen]; rfl⟩
    · exact ⟨[], Or.inl rfl, by simp [Token.text, hshort hlen], by rw [if_neg hlen]; rfl⟩
  | @point a ha => exact ⟨[.literal a], Or.inr (.whole ha), by simp [Token.text], rfl⟩
  | @places a b ha hb =>
    show ∃ run', _ ∧ _ ∧ (if 1 < b.length then _ else _ : Option Char × Buffer).2 = _
    have htext : ([Token.literal a, .dot, .literal b].flatMap Token.text).dropLast = a ++ '.' :: b.dropLast := by
      simp [Token.text, List.dropLast_append_of_ne_nil, List.dropLast_cons_of_ne_nil hb]
    by_cases hlen : 1 < b.length
    · refine ⟨[.literal a, .dot, .literal b.dropLast], Or.inr (.places ha (hlong hlen)), ?_, by rw [if_pos hlen]; rfl⟩
      rw [htext]
      simp [Token.text]
    · refine ⟨[.literal a, .dot], Or.inr (.point ha), ?_, by rw [if_neg hlen]; rfl⟩
      rw [htext, hshort hlen]
      simp [Token.text]

end Run

/-! ## Where the last number starts -/

namespace Buffer

variable {b : Buffer} {before run : List Token}

theorem stack_eq (h : b.tokens = before ++ run) : b.stack = run.reverse ++ before.reverse := by
  have h' := congrArg List.reverse h
  rwa [tokens, List.reverse_reverse, List.reverse_append] at h'

theorem tokens_eq {stack : List Token} (h : stack = run.reverse ++ before.reverse) :
    (⟨stack⟩ : Buffer).tokens = before ++ run := by
  rw [tokens, h, List.reverse_append, List.reverse_reverse, List.reverse_reverse]

end Buffer

/-- What is closed is empty or ends with an operator. -/
theorem Closed.reverse_cases {before : List Token} (h : Closed before) :
    before.reverse = [] ∨ ∃ op below, before.reverse = .operator op :: below ∧ Layout below.reverse := by
  cases h with
  | start => exact Or.inl rfl
  | @operator before run op hbefore hrun =>
    refine Or.inr ⟨op, (before ++ run).reverse, List.reverse_append, before, run, ?_, hbefore, Or.inr hrun⟩
    rw [List.reverse_reverse]

section Cut

variable {b : Buffer} {before run : List Token}

/-- The number being entered is what follows the last operator. -/
theorem trailing_eq (htokens : b.tokens = before ++ run) (hbefore : Closed before)
    (hrun : ∀ t ∈ run, t.isOperator = false) : b.trailing = run.reverse := by
  have hbelow : before.reverse.takeWhile (fun t => !t.isOperator) = [] := by
    rcases hbefore.reverse_cases with h | ⟨op, below, h, -⟩
    · rw [h]; rfl
    · rw [h]; rfl
  rw [Buffer.trailing, Buffer.stack_eq htokens, List.takeWhile_append_of_pos (by simpa using hrun), hbelow,
    List.append_nil]

theorem currentNumber_eq (htokens : b.tokens = before ++ run) (hbefore : Closed before)
    (hrun : ∀ t ∈ run, t.isOperator = false) : b.currentNumber = run.flatMap Token.text := by
  rw [Buffer.currentNumber, trailing_eq htokens hbefore hrun, List.reverse_reverse]

end Cut

theorem isOperator_of_operand {before run : List Token} (h : run = [] ∨ IsOperand before run) :
    ∀ t ∈ run, t.isOperator = false := by
  rcases h with rfl | h
  · simp
  · exact h.shape.isOperator

/-! ## The keys -/

section Keys

variable {b b' : Buffer}

theorem Layout.nil : Layout [] := ⟨[], [], rfl, .start, Or.inl rfl⟩

theorem Layout.seed {text : List Char} (h : IsCarried text) (hne : text ≠ []) : Layout (Buffer.seed text).tokens := by
  have htext : [Token.literal text].flatMap Token.text = text := by simp [Token.text]
  refine ⟨[], [.literal text], rfl, .start, Or.inr (.of_text (.whole hne) ?_)⟩
  rw [htext]
  exact Or.inr ⟨rfl, h⟩

theorem Layout.seed_carriedText {x : Binary64} (hx : x.isFinite) : Layout (Buffer.seed (carriedText x)).tokens :=
  .seed (isCarried_carriedText hx) (carriedText_ne_nil hx)

theorem Layout.seed_displayText {x : Binary64} (hx : x.isFinite) : Layout (Buffer.seed (displayText x)).tokens :=
  .seed ((isCarried_carriedText hx).of_isPrefix (List.take_prefix _ _) (displayText_ne_nil hx)) (displayText_ne_nil hx)

theorem Layout.pushDigit? {d : Char} (h : Layout b.tokens) (hd : d.isDigit) (hpush : b.pushDigit? d = some b') :
    Layout b'.tokens := by
  obtain ⟨before, run, htokens, hbefore, hrun⟩ := h
  have hstack := Buffer.stack_eq htokens
  have htrailing := trailing_eq htokens hbefore (isOperator_of_operand hrun)
  have hnumber := currentNumber_eq htokens hbefore (isOperator_of_operand hrun)
  unfold Buffer.pushDigit? at hpush
  by_cases hfull : displayWidth ≤ b.currentWidth
  · simp [hfull] at hpush
  rw [if_neg hfull] at hpush
  obtain rfl := Option.some.inj hpush
  -- after an operator, and in place of a lone zero, the digit is an operand of its own
  have hnew : Layout (⟨Buffer.appendDigit d before.reverse⟩ : Buffer).tokens := by
    have hdigit : Buffer.appendDigit d before.reverse = [Token.literal [d]].reverse ++ before.reverse := by
      rcases hbefore.reverse_cases with h | ⟨op, below, h, -⟩
      · rw [h]; rfl
      · rw [h]; rfl
    rw [Buffer.tokens_eq hdigit]
    exact ⟨before, _, rfl, hbefore, Or.inr (.of_text (.whole (by simp)) (operandText_digit before hd))⟩
  by_cases hzero : b.trailing = [.literal ['0']]
  · have hrun0 : run.reverse = [.literal ['0']] := htrailing.symm.trans hzero
    rw [Buffer.dropLoneZero, if_pos hzero, hstack, hrun0]
    exact hnew
  · rw [Buffer.dropLoneZero, if_neg hzero, hstack]
    rcases hrun with rfl | hrun
    · exact hnew
    · obtain ⟨run', hshape, htext, hdigit⟩ := hrun.shape.appendDigit d before.reverse
      have hne : run.flatMap Token.text ≠ ['0'] := by
        intro h0
        rw [htrailing, hrun.shape.eq_zero h0] at hzero
        exact hzero rfl
      rw [Buffer.tokens_eq hdigit]
      refine ⟨before, run', rfl, hbefore, Or.inr (.of_text hshape ?_)⟩
      rw [htext]
      refine hrun.text.append_digit hne hd ?_
      rw [← hnumber, ← Buffer.currentWidth_eq]
      exact Nat.lt_of_not_le hfull

theorem Layout.pushDot? (h : Layout b.tokens) (hpush : b.pushDot? = some b') : Layout b'.tokens := by
  obtain ⟨before, run, htokens, hbefore, hrun⟩ := h
  have hstack := Buffer.stack_eq htokens
  have htrailing := trailing_eq htokens hbefore (isOperator_of_operand hrun)
  have hnumber := currentNumber_eq htokens hbefore (isOperator_of_operand hrun)
  unfold Buffer.pushDot? at hpush
  by_cases hused : b.dotUsed = true
  · simp [hused] at hpush
  rw [if_neg hused] at hpush
  rcases hrun with rfl | hrun
  · have hwidth : b.currentWidth = 0 := by rw [Buffer.currentWidth_eq, hnumber]; rfl
    rw [if_pos hwidth] at hpush
    obtain rfl := Option.some.inj hpush
    have hpoint : .dot :: .literal ['0'] :: b.stack = [Token.literal ['0'], .dot].reverse ++ before.reverse := by
      rw [hstack]; rfl
    rw [Buffer.tokens_eq hpoint]
    exact ⟨before, _, rfl, hbefore, Or.inr (.of_text (.point (by simp)) (operandText_zero_dot before))⟩
  · have hwidth : b.currentWidth ≠ 0 := by
      rw [Buffer.currentWidth_eq, hnumber]
      exact mt List.eq_nil_of_length_eq_zero hrun.shape.text_ne_nil
    rw [if_neg hwidth] at hpush
    by_cases hfull : displayWidth < b.currentWidth + 1
    · simp [hfull] at hpush
    rw [if_neg hfull] at hpush
    obtain rfl := Option.some.inj hpush
    have hdot : run.any Token.hasDot = false := by
      rw [← List.any_reverse, ← htrailing]
      exact Bool.eq_false_iff.mpr hused
    obtain ⟨a, ha, rfl, hmem⟩ := hrun.shape.of_no_dot hdot
    have htext (rest : List Token) : (Token.literal a :: rest).flatMap Token.text = a ++ rest.flatMap Token.text := rfl
    have hpoint : .dot :: b.stack = [Token.literal a, .dot].reverse ++ before.reverse := by rw [hstack]; rfl
    rw [Buffer.tokens_eq hpoint]
    refine ⟨before, _, rfl, hbefore, Or.inr (.of_text (.point ha) ?_)⟩
    have htyped := hrun.text
    rw [htext, List.flatMap_nil, List.append_nil] at htyped
    refine htyped.append_dot hmem ?_
    rw [Buffer.currentWidth_eq, hnumber, htext, List.flatMap_nil, List.append_nil] at hfull
    omega

/-- After an operand the operator closes it; otherwise it takes the place of the operator before it. -/
theorem Layout.pushOperator? {op : Operator} (h : Layout b.tokens) (hpush : b.pushOperator? op = some b') :
    Layout b'.tokens := by
  obtain ⟨before, run, htokens, hbefore, hrun⟩ := h
  have hstack := Buffer.stack_eq htokens
  have hclosed {tokens : List Token} (h : Closed tokens) : Layout tokens :=
    ⟨tokens, [], (List.append_nil _).symm, h, Or.inl rfl⟩
  rcases hrun with rfl | hrun
  · cases hbefore with
    | start => rw [Buffer.pushOperator?, hstack] at hpush; cases hpush
    | @operator before run old hbefore hrun =>
      have hold : b.stack = .operator old :: (before ++ run).reverse := by
        rw [hstack, List.reverse_append]; rfl
      rw [Buffer.pushOperator?, hold] at hpush
      obtain rfl := Option.some.inj hpush
      have htokens : (⟨.operator op :: (before ++ run).reverse⟩ : Buffer).tokens = before ++ run ++ [.operator op] :=
        Buffer.tokens_eq rfl
      rw [htokens]
      exact hclosed (.operator op hbefore hrun)
  · have hpushed : b' = ⟨.operator op :: b.stack⟩ := by
      rw [Buffer.pushOperator?, hstack] at hpush
      rw [hstack]
      cases hrun.shape <;> exact (Option.some.inj hpush).symm
    have htokens' : b'.tokens = before ++ run ++ [.operator op] :=
      hpushed ▸ Buffer.tokens_eq (by rw [hstack, List.reverse_append]; rfl)
    rw [htokens']
    exact hclosed (.operator op hbefore hrun)

theorem Layout.pop (h : Layout b.tokens) : Layout b.pop.2.tokens := by
  obtain ⟨before, run, htokens, hbefore, hrun⟩ := h
  have hstack := Buffer.stack_eq htokens
  obtain ⟨stack⟩ := b
  obtain rfl : stack = run.reverse ++ before.reverse := hstack
  rcases hrun with rfl | hrun
  · show Layout (⟨before.reverse⟩ : Buffer).pop.2.tokens
    rcases hbefore.reverse_cases with h | ⟨op, below, h, hbelow⟩
    · rw [h]; exact .nil
    · rw [h]; exact hbelow
  · obtain ⟨run', hshape, htext, hpop⟩ := hrun.shape.pop before.reverse
    rw [hpop, Buffer.tokens_eq rfl]
    refine ⟨before, run', rfl, hbefore, ?_⟩
    rcases hshape with rfl | hshape
    · exact Or.inl rfl
    · refine Or.inr (.of_text hshape (hrun.text.of_isPrefix ?_ hshape.text_ne_nil))
      rw [htext]
      exact List.dropLast_prefix _

theorem Layout.isFinite_currentNumber {x : Binary64} (h : Layout b.tokens)
    (hread : Binary64.read? b.currentNumber = some x) : x.isFinite := by
  obtain ⟨before, run, htokens, hbefore, hrun⟩ := h
  rw [currentNumber_eq htokens hbefore (isOperator_of_operand hrun)] at hread
  rcases hrun with rfl | hrun
  · cases hread
  · exact hrun.text.isCarried.isFinite hread

end Keys

/-! ## Refused keys -/

namespace Buffer

variable {b : Buffer}

theorem isEmpty_iff : b.isEmpty ↔ b = {} := by
  obtain ⟨stack⟩ := b
  cases stack with
  | nil => exact ⟨fun _ => rfl, fun _ => rfl⟩
  | cons t stack => exact ⟨nofun, nofun⟩

/-- Only a number that fills the display refuses a digit. -/
theorem pushDigit?_ne_empty (d : Char) : (b.pushDigit? d).getD b ≠ {} := by
  unfold pushDigit?
  by_cases hfull : displayWidth ≤ b.currentWidth
  · rw [if_pos hfull]
    rintro hnil
    obtain rfl : b = {} := hnil
    exact absurd hfull (by decide)
  · rw [if_neg hfull]
    show Buffer.mk _ ≠ Buffer.mk []
    intro h
    have hstack := congrArg Buffer.stack h
    generalize b.dropLoneZero.stack = stack at hstack
    unfold appendDigit at hstack
    split at hstack <;> cases hstack

/-- Only a number with a point, or one that leaves no room, refuses a point. -/
theorem pushDot?_ne_empty : b.pushDot?.getD b ≠ {} := by
  unfold pushDot?
  by_cases hused : b.dotUsed = true
  · rw [if_pos hused]
    rintro hnil
    obtain rfl : b = {} := hnil
    cases hused
  rw [if_neg hused]
  by_cases hwidth : b.currentWidth = 0
  · rw [if_pos hwidth]
    intro h
    cases congrArg Buffer.stack h
  rw [if_neg hwidth]
  by_cases hfull : displayWidth < b.currentWidth + 1
  · rw [if_pos hfull]
    rintro hnil
    obtain rfl : b = {} := hnil
    exact hwidth rfl
  · rw [if_neg hfull]
    intro h
    cases congrArg Buffer.stack h

theorem pushOperator?_ne_empty {op : Operator} {b' : Buffer} (h : b.pushOperator? op = some b') : b' ≠ {} := by
  obtain ⟨stack⟩ := b
  rcases stack with _ | ⟨t, stack⟩
  · cases h
  · cases t <;> (cases h; nofun)

end Buffer

end Keypad
