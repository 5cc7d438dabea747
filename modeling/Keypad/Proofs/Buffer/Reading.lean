import Keypad.Proofs.Buffer.Retype
import Keypad.Proofs.Dangling

/-!
# Keypad.Proofs.Buffer.Reading — what an expression is read as

* `read?_symbol`: a number with an operator behind it is not read as a number.
* `Layout.read?_text`: so the text of an expression is read exactly when it is a single number.
* `IsBareSign`: a minus sign without digits; `read?_eq_none_iff`, `Layout.read?_text_eq_none_iff`: of the numbers that
  can be typed it alone is not read.
* `Runs.Entered`: operands that were typed, or carried and then edited; `Layout.entered`: an expression has such
  operands.
* `evaluate_eq_malformed_iff`: an expression that ends with an operand is malformed only by a bare sign at its start.
-/

namespace Keypad

open Decimal Binary64

/-! ## Reading an expression -/

theorem toLower_symbol (op : Operator) : op.symbol.toLower = op.symbol := by
  cases op <;> decide

/-- A symbol is no part of a numeral. -/
theorem scientific_read?_symbol {whole fraction : List Char} (hwhole : Digits whole) (hfraction : IsFraction fraction)
    (op : Operator) (more : List Char) : Scientific.read? (whole ++ (fraction ++ op.symbol :: more)) = none := by
  have hexponent : ¬ (op.symbol = 'e' ∨ op.symbol = 'E') := by cases op <;> decide
  have hspan : Scientific.spanDigits (whole ++ (fraction ++ op.symbol :: more)) =
      (whole, fraction ++ op.symbol :: more) := by
    refine spanDigits_append hwhole ?_
    rcases hfraction with rfl | ⟨digits, -, rfl⟩
    · simpa using op.isDigit_symbol
    · simp
  have hfrac : Scientific.splitFraction (fraction ++ op.symbol :: more) = (fraction.tail, op.symbol :: more) := by
    rcases hfraction with rfl | ⟨digits, hdigits, rfl⟩
    · rw [List.nil_append, Scientific.splitFraction]
      · rfl
      · intro rest h
        exact op.symbol_ne_point (List.cons_eq_cons.mp h).1
    · exact spanDigits_append hdigits (by simpa using op.isDigit_symbol)
  rw [Scientific.read?, hspan]
  simp only [hfrac]
  rw [if_neg hexponent, ite_self]

theorem read?_symbol {text : List Char} (h : IsUnsigned text ∨ IsNegative text) (op : Operator) (more : List Char) :
    Binary64.read? (text ++ op.symbol :: more) = none := by
  obtain ⟨s, whole, fraction, hwhole, hfraction, hsplit⟩ : ∃ s whole fraction, Digits whole ∧ IsFraction fraction ∧
      Scientific.splitSign (text ++ op.symbol :: more) = (s, whole ++ (fraction ++ op.symbol :: more)) := by
    rcases h with ⟨whole, fraction, hwhole, hfraction, rfl⟩ | ⟨whole, fraction, hwhole, hfraction, rfl⟩
    · refine ⟨false, whole, fraction, hwhole.digits, hfraction, ?_⟩
      obtain ⟨d, digits, rfl⟩ := List.exists_cons_of_ne_nil hwhole.ne_nil
      have hd : d.isDigit := (digits_cons.mp hwhole.digits).1
      rw [List.append_assoc, List.cons_append]
      refine splitSign_of_ne ?_ ?_
      · rintro rfl
        cases hd
      · rintro rfl
        cases hd
    · refine ⟨true, whole, fraction, hwhole, hfraction, ?_⟩
      rw [List.cons_append, List.append_assoc]
      rfl
  have hword {w : List Char} (hw : op.symbol ∉ w) :
      (whole ++ (fraction ++ op.symbol :: more)).map Char.toLower ≠ w := by
    rintro rfl
    refine hw (List.mem_map.mpr ⟨op.symbol, by simp, toLower_symbol op⟩)
  have hinf : op.symbol ∉ "inf".toList := by cases op <;> decide
  have hinfinity : op.symbol ∉ "infinity".toList := by cases op <;> decide
  have hnan : op.symbol ∉ "nan".toList := by cases op <;> decide
  rw [Binary64.read?, hsplit]
  dsimp only
  rw [if_neg (not_or.mpr ⟨hword hinf, hword hinfinity⟩), if_neg (hword hnan),
    scientific_read?_symbol hwhole hfraction op more]
  rfl

section Expression

variable {tokens before : List Token} {b : Buffer}

/-- What is closed starts with an operand and the operator after it. -/
theorem Closed.first (h : Closed before) : before = [] ∨
    ∃ run op rest, IsOperand [] run ∧ before = run ++ .operator op :: rest := by
  induction h with
  | start => exact Or.inl rfl
  | @operator before run op _ hrun ih =>
    rcases ih with rfl | ⟨run', op', rest, hrun', rfl⟩
    · exact Or.inr ⟨run, op, [], hrun, by rw [List.nil_append]⟩
    · exact Or.inr ⟨run', op', rest ++ run ++ [.operator op], hrun', by simp⟩

/-- An expression is a single number, or starts with one and an operator. -/
theorem Layout.first (h : Layout tokens) : tokens = [] ∨ IsOperand [] tokens ∨
    ∃ run op rest, IsOperand [] run ∧ tokens = run ++ .operator op :: rest := by
  obtain ⟨before, run, rfl, hbefore, hrun⟩ := h
  rcases hbefore.first with rfl | ⟨run', op, rest, hrun', rfl⟩
  · rw [List.nil_append]
    exact hrun.imp_right Or.inl
  · exact Or.inr (Or.inr ⟨run', op, rest ++ run, hrun', by simp⟩)

/-- **The text** of an expression is read as its number if it is a single one, and not at all otherwise. -/
theorem Layout.read?_text (h : Layout b.tokens) (hne : b ≠ {}) :
    (if b.isSingleNumber then Binary64.read? b.currentNumber else none) = Binary64.read? b.text := by
  have hfull : b.isEmpty = false := Bool.eq_false_iff.mpr (mt Buffer.isEmpty_iff.mp hne)
  have hsingle : b.isSingleNumber = !b.tokens.any Token.isOperator := by
    rw [Buffer.isSingleNumber, hfull, Buffer.tokens, List.any_reverse]
    rfl
  rw [hsingle]
  rcases h.first with hnil | hrun | ⟨run, op, rest, hrun, htokens⟩
  · have hempty : b.stack = [] := List.reverse_eq_nil_iff.mp hnil
    rw [Buffer.isEmpty, hempty] at hfull
    cases hfull
  · have htokens : b.tokens = [] ++ b.tokens := (List.nil_append _).symm
    have hnumber := currentNumber_eq htokens .start hrun.shape.isOperator
    have hnone : b.tokens.any Token.isOperator = false := by simpa using hrun.shape.isOperator
    rw [hnone, hnumber]
    rfl
  · have hsome : b.tokens.any Token.isOperator = true := by
      rw [htokens]
      simp [Token.isOperator]
    have htext : b.text = run.flatMap Token.text ++ op.symbol :: rest.flatMap Token.text := by
      rw [Buffer.text, htokens, List.flatMap_append]
      rfl
    rw [hsome, htext, read?_symbol hrun.text.isCarried.1]
    rfl

end Expression

/-! ## Numbers that can be read -/

/-- A minus sign without digits, as it is left of a negative number. -/
def IsBareSign (text : List Char) : Prop := text = ['-'] ∨ text = ['-', '.']

instance : DecidablePred IsBareSign := fun _ => inferInstanceAs (Decidable (_ ∨ _))

section Number

variable {text : List Char}

theorem read?_of_isUnsigned (h : IsUnsigned text) : ∃ x, Binary64.read? text = some x := by
  obtain ⟨whole, fraction, hwhole, hfraction, rfl⟩ := h
  have hne : whole ++ fraction.tail ≠ [] := fun hnil => hwhole.ne_nil (List.append_eq_nil_iff.mp hnil).1
  exact ⟨_, read?_numeral false hwhole.digits hfraction hne⟩

/-- **A number** that can be typed is read, unless its digits are still missing. -/
theorem read?_eq_none_iff (h : IsUnsigned text ∨ IsNegative text) :
    Binary64.read? text = none ↔ IsBareSign text := by
  constructor
  · intro hnone
    rcases h with h | ⟨whole, fraction, hwhole, hfraction, rfl⟩
    · obtain ⟨x, hx⟩ := read?_of_isUnsigned h
      rw [hnone] at hx
      cases hx
    · by_cases hnil : whole ++ fraction.tail = []
      · obtain ⟨rfl, htail⟩ := List.append_eq_nil_iff.mp hnil
        rcases hfraction with rfl | ⟨digits, -, rfl⟩
        · exact Or.inl rfl
        · obtain rfl : digits = [] := htail
          exact Or.inr rfl
      · have hread : Binary64.read? ('-' :: (whole ++ fraction)) = some _ := read?_numeral true hwhole hfraction hnil
        rw [hnone] at hread
        cases hread
  · rintro (rfl | rfl) <;> rfl

theorem readOperand_of_isBareSign (h : IsBareSign text) : readOperand text = .error .malformedExpression := by
  rcases h with rfl | rfl <;> rfl

theorem IsCarried.readOperand (h : IsCarried text) (hsign : ¬ IsBareSign text) : ∃ x, readOperand text = .ok x := by
  cases hread : Binary64.read? text with
  | none => exact absurd ((read?_eq_none_iff h.1).mp hread) hsign
  | some x =>
    refine ⟨x, ?_⟩
    rw [Keypad.readOperand, hread]
    exact if_pos (h.isFinite hread)

theorem IsTyped.readOperand (h : IsTyped text) : ∃ x, readOperand text = .ok x := by
  refine h.isCarried.readOperand fun hsign => ?_
  obtain ⟨x, hx⟩ := read?_of_isUnsigned h.1
  rw [(read?_eq_none_iff (Or.inl h.1)).mpr hsign] at hx
  cases hx

theorem IsCarried.ne_nil (h : IsCarried text) : text ≠ [] := by
  rcases h.1 with ⟨whole, fraction, hwhole, -, rfl⟩ | ⟨whole, fraction, -, -, rfl⟩
  · exact List.append_ne_nil_of_left_ne_nil hwhole.ne_nil fraction
  · exact List.cons_ne_nil _ _

/-- The text of an expression is not read if it has an operator, or is a bare sign. -/
theorem Layout.read?_text_eq_none_iff {b : Buffer} (h : Layout b.tokens) (hne : b ≠ {}) :
    Binary64.read? b.text = none ↔ (∃ op, .operator op ∈ b.tokens) ∨ IsBareSign b.text := by
  rcases h.first with hnil | hrun | ⟨run, op, rest, hrun, htokens⟩
  · have hempty : b.stack = [] := List.reverse_eq_nil_iff.mp hnil
    exact absurd (congrArg Buffer.mk hempty) hne
  · have hnone : ¬ ∃ op, .operator op ∈ b.tokens := fun ⟨op, hop⟩ => nomatch hrun.shape.isOperator _ hop
    rw [Buffer.text, read?_eq_none_iff hrun.text.isCarried.1]
    exact (or_iff_right hnone).symm
  · have htext : b.text = run.flatMap Token.text ++ op.symbol :: rest.flatMap Token.text := by
      rw [Buffer.text, htokens, List.flatMap_append]
      rfl
    refine iff_of_true ?_ (Or.inl ⟨op, ?_⟩)
    · rw [htext]
      exact read?_symbol hrun.text.isCarried.1 op _
    · rw [htokens]
      exact List.mem_append_right run List.mem_cons_self

end Number

/-! ## Operands that can be read -/

/-- The first operand was typed, or carried and then edited, and the later ones were typed. -/
structure Runs.Entered (r : Runs) : Prop where
  first : IsCarried r.first
  later : ∀ operand ∈ r.rest, IsTyped operand.2

section Operands

variable {tokens before : List Token} {r : Runs}

theorem Closed.entered (h : Closed before) : ∀ r : Runs, OperandText before r.first →
    (∀ operand ∈ r.rest, IsTyped operand.2) → (before.foldr Runs.cons r).Entered := by
  induction h with
  | start => exact fun r hfirst hlater => ⟨hfirst.isCarried, hlater⟩
  | @operator before run op _ hrun ih =>
    intro r hfirst hlater
    -- behind an operator an operand is typed
    have htyped : IsTyped r.first := hfirst.resolve_right fun hcarried => by simp at hcarried
    rw [List.foldr_append, List.foldr_append, foldr_cons_run hrun.shape.isOperator]
    refine ih _ ?_ (List.forall_mem_cons.mpr ⟨htyped, hlater⟩)
    show OperandText before (run.flatMap Token.text ++ [])
    rw [List.append_nil]
    exact hrun.text

/-- **The operands** of an expression that does not end with an operator. -/
theorem Layout.entered (h : Layout tokens) (hne : tokens ≠ [])
    (hlast : ∀ op, tokens.getLast? ≠ some (.operator op)) : (Runs.ofTokens tokens).Entered := by
  obtain ⟨before, run, rfl, hbefore, rfl | hrun⟩ := h
  · rw [List.append_nil] at hne hlast
    cases hbefore with
    | start => exact absurd rfl hne
    | operator op _ _ => exact absurd List.getLast?_concat (hlast op)
  · rw [Runs.ofTokens, List.foldr_append, foldr_cons_run hrun.shape.isOperator]
    refine hbefore.entered _ ?_ (List.forall_mem_nil _)
    rw [List.append_nil]
    exact hrun.text

theorem Runs.Entered.last_ne_nil (h : r.Entered) : r.last ≠ [] := by
  unfold last
  cases hlast : r.rest.getLast? with
  | none => exact h.first.ne_nil
  | some operand => exact (h.later operand (List.mem_of_getLast? hlast)).isCarried.ne_nil

end Operands

/-! ## Expressions that are malformed -/

section Malformed

open Grammar

variable {value term : Binary64} {rest later : List (Operator × List Char)}

theorem bind_ne_error {ε α β : Type} {x : Except ε α} {f : α → Except ε β} {e : ε} (hx : x ≠ .error e)
    (hf : ∀ a, x = .ok a → f a ≠ .error e) : (x >>= f) ≠ .error e := by
  cases x with
  | error e' => exact fun h => hx (congrArg Except.error (Except.error.inj h))
  | ok a => exact hf a rfl

theorem product_suffix (h : product value rest = .ok (term, later)) : later <:+ rest := by
  induction rest generalizing value with
  | nil =>
    rw [product] at h
    cases h
    exact List.suffix_refl _
  | cons head rest ih =>
    obtain ⟨op, text⟩ := head
    rw [product] at h
    split at h
    · obtain ⟨operand, -, h⟩ := bind_eq_ok.mp h
      obtain ⟨next, -, h⟩ := bind_eq_ok.mp h
      exact (ih h).trans (List.suffix_cons _ _)
    · cases h
      exact List.suffix_refl _

/-- Operands that can be read leave a product only its operations to fail by. -/
theorem product_ne_malformed (hrest : ∀ operand ∈ rest, ∃ x, readOperand operand.2 = .ok x) :
    product value rest ≠ .error .malformedExpression := by
  induction rest generalizing value with
  | nil => simp [product]
  | cons head rest ih =>
    obtain ⟨op, text⟩ := head
    obtain ⟨⟨operand, hoperand⟩, hlater⟩ := List.forall_mem_cons.mp hrest
    rw [product]
    split
    · rw [hoperand, ok_bind]
      exact bind_ne_error (op.apply_ne_malformed _ _) fun _ _ => ih hlater
    · simp

theorem sum_ne_malformed (hrest : ∀ operand ∈ rest, ∃ x, readOperand operand.2 = .ok x) :
    Grammar.sum value rest ≠ .error .malformedExpression := by
  induction value, rest using Grammar.sum.induct with
  | case1 value => simp [Grammar.sum]
  | case2 value op text rest ih =>
    obtain ⟨⟨operand, hoperand⟩, hlater⟩ := List.forall_mem_cons.mp hrest
    rw [sum_cons, hoperand, ok_bind]
    refine bind_ne_error (product_ne_malformed hlater) fun h hterm => ?_
    refine bind_ne_error (op.apply_ne_malformed _ _) fun next _ => ih operand h.1 h.2 hterm next fun later hmem => ?_
    exact hlater later ((product_suffix hterm).subset hmem)

theorem Runs.Entered.value_ne_malformed {r : Runs} (h : r.Entered) (hsign : ¬ IsBareSign r.first) :
    r.value ≠ .error .malformedExpression := by
  have hrest : ∀ operand ∈ r.rest, ∃ x, readOperand operand.2 = .ok x :=
    fun operand hmem => (h.later operand hmem).readOperand
  obtain ⟨operand, hoperand⟩ := h.first.readOperand hsign
  rw [value, hoperand, ok_bind]
  refine bind_ne_error (product_ne_malformed hrest) fun term hterm => ?_
  exact sum_ne_malformed fun later hmem => hrest later ((product_suffix hterm).subset hmem)

/-- **An expression** that ends with an operand is malformed if and only if it starts with a bare sign. -/
theorem evaluate_eq_malformed_iff {tokens : List Token} (h : Layout tokens) (hne : tokens ≠ [])
    (hlast : ∀ op, tokens.getLast? ≠ some (.operator op)) :
    evaluate tokens = .error .malformedExpression ↔ IsBareSign (Runs.ofTokens tokens).first := by
  have hentered := h.entered hne hlast
  rw [evaluate_eq_grammar, if_neg hentered.last_ne_nil]
  constructor
  · intro herror
    by_contra hsign
    have hvalue := hentered.value_ne_malformed hsign
    cases hr : (Runs.ofTokens tokens).value with
    | ok x =>
      rw [hr] at herror
      cases herror
    | error e =>
      rw [hr] at herror hvalue
      exact hvalue (congrArg Except.error (Except.error.inj herror))
  · intro hsign
    rw [Runs.value, readOperand_of_isBareSign hsign]
    rfl

end Malformed

end Keypad
