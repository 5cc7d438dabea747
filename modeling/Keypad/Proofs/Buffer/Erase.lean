import Keypad.Proofs.Buffer.Typing

/-!
# Keypad.Proofs.Buffer.Erase — removing at the end

* `Layout.token_text_ne_nil`: every token of an expression shows something.
* `text_pop`: so removing takes the last character off the text, whatever kind of token it belongs to.
* `pop_of_push?`: and it takes back a key that made the text one character longer, token by token.
-/

namespace Keypad

/-! ## Tokens that show something -/

section Layout

variable {tokens before run : List Token}

theorem IsRun.token_text_ne_nil (h : IsRun run) : ∀ t ∈ run, t.text ≠ [] := by
  cases h <;> simp [Token.text, *]

theorem Closed.token_text_ne_nil (h : Closed before) : ∀ t ∈ before, t.text ≠ [] := by
  induction h with
  | start => simp
  | @operator before run op _ hrun ih =>
    intro t ht
    rcases List.mem_append.mp ht with ht | ht
    · rcases List.mem_append.mp ht with ht | ht
      · exact ih t ht
      · exact hrun.shape.token_text_ne_nil t ht
    · rw [List.mem_singleton.mp ht]
      exact List.cons_ne_nil _ _

theorem Layout.token_text_ne_nil (h : Layout tokens) : ∀ t ∈ tokens, t.text ≠ [] := by
  obtain ⟨before, run, rfl, hbefore, hrun⟩ := h
  intro t ht
  rcases List.mem_append.mp ht with ht | ht
  · exact hbefore.token_text_ne_nil t ht
  · rcases hrun with rfl | hrun
    · cases ht
    · exact hrun.shape.token_text_ne_nil t ht

end Layout

namespace Buffer

variable {b b' : Buffer} {stack : List Token}

/-! ## The text -/

theorem text_cons (t : Token) (below : List Token) :
    (⟨t :: below⟩ : Buffer).text = (⟨below⟩ : Buffer).text ++ t.text := by
  rw [Buffer.text, Buffer.tokens, List.reverse_cons, List.flatMap_append, List.flatMap_singleton]
  rfl

theorem length_text_cons (t : Token) (below : List Token) :
    (⟨t :: below⟩ : Buffer).text.length = (⟨below⟩ : Buffer).text.length + t.text.length := by
  rw [text_cons, List.length_append]

theorem text_appendDigit (d : Char) (stack : List Token) :
    (⟨appendDigit d stack⟩ : Buffer).text = (⟨stack⟩ : Buffer).text ++ [d] := by
  unfold appendDigit
  split
  · rw [text_cons, text_cons, Token.text, Token.text, List.append_assoc]
  · rw [text_cons, Token.text]

/-- **Removing** takes the last character off the text. -/
theorem text_pop (h : ∀ t ∈ b.tokens, t.text ≠ []) : b.pop.2.text = b.text.dropLast := by
  obtain ⟨stack⟩ := b
  rcases stack with _ | ⟨t, below⟩
  · rfl
  have hne : t.text ≠ [] := h t (by simp [tokens])
  rw [text_cons, List.dropLast_append_of_ne_nil hne]
  cases t with
  | literal a =>
    show (if 1 < a.length then _ else _ : Option Char × Buffer).2.text = _ ++ a.dropLast
    by_cases hlen : 1 < a.length
    · rw [if_pos hlen]
      exact text_cons _ _
    · rw [if_neg hlen]
      have hnil : a.dropLast = [] := List.eq_nil_of_length_eq_zero (by rw [List.length_dropLast]; omega)
      rw [hnil, List.append_nil]
  | dot => exact (List.append_nil _).symm
  | operator op => exact (List.append_nil _).symm

/-! ## Taking back a key -/

theorem pop_appendDigit (d : Char) (h : ∀ t ∈ stack, t.text ≠ []) :
    (⟨appendDigit d stack⟩ : Buffer).pop.2 = ⟨stack⟩ := by
  unfold appendDigit
  split
  · rename_i a below
    have hlen : 1 < (a ++ [d]).length := by
      have hpos : 0 < a.length := List.length_pos_iff.mpr (h _ List.mem_cons_self)
      rw [List.length_append, List.length_singleton]
      omega
    show (if 1 < (a ++ [d]).length then _ else _ : Option Char × Buffer).2 = _
    rw [if_pos hlen, List.dropLast_concat]
  · rfl

/-- A digit in place of a lone zero does not make the text longer. -/
theorem pop_pushDigit? {d : Char} (h : ∀ t ∈ b.tokens, t.text ≠ []) (hpush : b.pushDigit? d = some b')
    (hlonger : b'.text.length = b.text.length + 1) : b'.pop.2 = b := by
  unfold pushDigit? at hpush
  split at hpush
  · cases hpush
  obtain rfl := Option.some.inj hpush
  obtain ⟨stack⟩ := b
  unfold dropLoneZero at hlonger ⊢
  split at hlonger
  · rename_i hzero
    exfalso
    rcases stack with _ | ⟨t, below⟩
    · cases hzero
    · have ht : t.text.length = 1 := by
        rw [trailing, List.takeWhile_cons] at hzero
        split at hzero
        · rw [(List.cons_eq_cons.mp hzero).1]
          rfl
        · cases hzero
      rw [text_appendDigit, length_text_cons, List.length_append, ht] at hlonger
      exact absurd hlonger (by simp)
  · rename_i hzero
    rw [if_neg hzero]
    exact pop_appendDigit d fun t ht => h t (List.mem_reverse.mpr ht)

/-- A point that starts a number brings a zero with it. -/
theorem pop_pushDot? (hpush : b.pushDot? = some b') (hlonger : b'.text.length = b.text.length + 1) : b'.pop.2 = b := by
  unfold pushDot? at hpush
  split_ifs at hpush
  · obtain rfl := Option.some.inj hpush
    rw [length_text_cons, length_text_cons] at hlonger
    exact absurd hlonger (by simp [Token.text])
  · obtain rfl := Option.some.inj hpush
    rfl

/-- An operator in place of another does not make the text longer. -/
theorem pop_pushOperator? {op : Operator} (hpush : b.pushOperator? op = some b')
    (hlonger : b'.text.length = b.text.length + 1) : b'.pop.2 = b := by
  obtain ⟨stack⟩ := b
  unfold pushOperator? at hpush
  split at hpush
  · cases hpush
  · rename_i old below hstack
    obtain rfl : stack = .operator old :: below := hstack
    obtain rfl := Option.some.inj hpush
    rw [length_text_cons, length_text_cons] at hlonger
    exact absurd hlonger (by simp [Token.text])
  · obtain rfl := Option.some.inj hpush
    rfl

/-- **Taking back**: a key that made the text one character longer is undone, down to the tokens. -/
theorem pop_of_push? {key : Key} (h : ∀ t ∈ b.tokens, t.text ≠ []) (hpush : b.push? key = some b')
    (hlonger : b'.text.length = b.text.length + 1) : b'.pop.2 = b := by
  rcases push?_cases hpush with ⟨c, -, -, hpush⟩ | ⟨-, hpush⟩ | ⟨op, -, hpush⟩
  · exact pop_pushDigit? h hpush hlonger
  · exact pop_pushDot? hpush hlonger
  · exact pop_pushOperator? hpush hlonger

end Buffer

end Keypad
