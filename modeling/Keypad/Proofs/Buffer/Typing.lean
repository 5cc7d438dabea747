import Keypad.Key
import Keypad.Proofs.Buffer.Layout

/-!
# Keypad.Proofs.Buffer.Typing — keys after an operator do not reach what is before it

* `Buffer.push?`, `Buffer.typed`: what a digit, point or operator key makes of a buffer; a refused key leaves it as it
  is.  `push?_cases`: the keys that are taken.
* `Buffer.Continues`: a buffer that goes on from an operator; `Buffer.onto` puts tokens before it.
* `typed_onto`: typing into such a buffer is the same whatever stands before it.
* `continuation`: the tokens that an operator and the keys after it add.
-/

namespace Keypad

/-- The keys that extend an expression. -/
def Key.isEntry : Key → Bool
  | digit _ | dot | operator _ => true
  | _ => false

namespace Buffer

/-- The buffer extended by a key, unless the key is refused. -/
def push? (b : Buffer) : Key → Option Buffer
  | .digit c => if c.isDigit then b.pushDigit? c else none
  | .dot => b.pushDot?
  | .operator op => b.pushOperator? op
  | _ => none

/-- The buffer after a key, unchanged if the key is refused. -/
def typed (b : Buffer) (key : Key) : Buffer := (b.push? key).getD b

/-- The first token is an operator. -/
def Continues (b : Buffer) : Prop := ∃ top op, b.stack = top ++ [.operator op]

/-- The buffer with other tokens before its own. -/
def onto (b : Buffer) (below : List Token) : Buffer := ⟨b.stack ++ below⟩

variable {b b' : Buffer} (below : List Token)

/-! ## Frames -/

/-- Only the tokens above the topmost operator count. -/
theorem takeWhile_append_operator (op : Operator) : ∀ top : List Token,
    (top ++ .operator op :: below).takeWhile (fun t => !t.isOperator) = top.takeWhile (fun t => !t.isOperator)
  | [] => rfl
  | t :: top => by
    rw [List.cons_append, List.takeWhile_cons, List.takeWhile_cons, takeWhile_append_operator op top]

theorem trailing_onto (h : b.Continues) : (b.onto below).trailing = b.trailing := by
  obtain ⟨top, op, hstack⟩ := h
  rw [onto, trailing, trailing, hstack]
  dsimp only
  rw [List.append_assoc, List.singleton_append, takeWhile_append_operator, takeWhile_append_operator]

theorem currentWidth_onto (h : b.Continues) : (b.onto below).currentWidth = b.currentWidth := by
  rw [currentWidth, trailing_onto below h, currentWidth]

theorem dotUsed_onto (h : b.Continues) : (b.onto below).dotUsed = b.dotUsed := by
  rw [dotUsed, trailing_onto below h, dotUsed]

theorem Continues.dropLoneZero (h : b.Continues) : b.dropLoneZero.Continues := by
  rw [Buffer.dropLoneZero]
  by_cases hzero : b.trailing = [.literal ['0']]
  · rw [if_pos hzero]
    obtain ⟨top, op, hstack⟩ := h
    rcases top with _ | ⟨t, top⟩
    · rw [trailing, hstack] at hzero
      cases hzero
    · exact ⟨top, op, by rw [hstack]; rfl⟩
  · rw [if_neg hzero]
    exact h

theorem dropLoneZero_onto (h : b.Continues) : (b.onto below).dropLoneZero = b.dropLoneZero.onto below := by
  rw [dropLoneZero, trailing_onto below h, dropLoneZero]
  split
  · obtain ⟨top, op, hstack⟩ := h
    show Buffer.mk (b.stack ++ below).tail = Buffer.mk (b.stack.tail ++ below)
    rw [hstack]
    cases top <;> rfl
  · rfl

theorem appendDigit_append (d : Char) (top : List Token) (op : Operator) :
    appendDigit d (top ++ .operator op :: below) = appendDigit d top ++ .operator op :: below := by
  rcases top with _ | ⟨t, top⟩
  · rfl
  · cases t <;> rfl

/-! ## Extending -/

theorem pushDigit?_onto (h : b.Continues) (d : Char) :
    (b.onto below).pushDigit? d = (b.pushDigit? d).map (·.onto below) := by
  rw [pushDigit?, currentWidth_onto below h, pushDigit?, dropLoneZero_onto below h]
  split
  · rfl
  · obtain ⟨top, op, hstack⟩ := h.dropLoneZero
    show some (Buffer.mk (appendDigit d (b.dropLoneZero.stack ++ below))) =
      some (Buffer.mk (appendDigit d b.dropLoneZero.stack ++ below))
    rw [hstack, List.append_assoc, List.singleton_append, appendDigit_append, appendDigit_append [], List.append_assoc,
      List.singleton_append]

theorem pushDot?_onto (h : b.Continues) : (b.onto below).pushDot? = b.pushDot?.map (·.onto below) := by
  rw [pushDot?, currentWidth_onto below h, dotUsed_onto below h, pushDot?]
  split
  · rfl
  · split
    · rfl
    · split <;> rfl

theorem pushOperator?_onto (h : b.Continues) (op : Operator) :
    (b.onto below).pushOperator? op = (b.pushOperator? op).map (·.onto below) := by
  obtain ⟨top, first, hstack⟩ := h
  obtain ⟨stack⟩ := b
  obtain rfl : stack = top ++ [.operator first] := hstack
  rcases top with _ | ⟨t, top⟩
  · rfl
  · cases t <;> rfl

theorem Continues.pushDigit? {d : Char} (h : b.Continues) (hpush : b.pushDigit? d = some b') : b'.Continues := by
  obtain ⟨top, op, hstack⟩ := h.dropLoneZero
  unfold Buffer.pushDigit? at hpush
  split at hpush
  · simp at hpush
  · obtain rfl := Option.some.inj hpush
    exact ⟨appendDigit d top, op, by rw [hstack, appendDigit_append]⟩

theorem Continues.pushDot? (h : b.Continues) (hpush : b.pushDot? = some b') : b'.Continues := by
  obtain ⟨top, op, hstack⟩ := h
  unfold Buffer.pushDot? at hpush
  split at hpush
  · simp at hpush
  · split at hpush
    · obtain rfl := Option.some.inj hpush
      exact ⟨.dot :: .literal ['0'] :: top, op, by rw [hstack]; rfl⟩
    · split at hpush
      · simp at hpush
      · obtain rfl := Option.some.inj hpush
        exact ⟨.dot :: top, op, by rw [hstack]; rfl⟩

theorem Continues.pushOperator? {op : Operator} (h : b.Continues) (hpush : b.pushOperator? op = some b') :
    b'.Continues := by
  obtain ⟨top, first, hstack⟩ := h
  rw [Buffer.pushOperator?, hstack] at hpush
  rcases top with _ | ⟨t, top⟩
  · obtain rfl := Option.some.inj hpush
    exact ⟨[], op, rfl⟩
  · cases t with
    | literal t => exact ⟨.operator op :: .literal t :: top, first, Option.some.inj hpush ▸ rfl⟩
    | dot => exact ⟨.operator op :: .dot :: top, first, Option.some.inj hpush ▸ rfl⟩
    | operator old => exact ⟨.operator op :: top, first, Option.some.inj hpush ▸ rfl⟩

theorem push?_onto (h : b.Continues) (key : Key) : (b.onto below).push? key = (b.push? key).map (·.onto below) := by
  cases key with
  | digit c =>
    show (if c.isDigit = true then _ else none) = (if c.isDigit = true then _ else none).map _
    split
    · exact pushDigit?_onto below h c
    · rfl
  | dot => exact pushDot?_onto below h
  | operator op => exact pushOperator?_onto below h op
  | percent => rfl
  | backspace => rfl
  | evaluate => rfl
  | clear => rfl

/-- A key that is not refused is a digit, a point or an operator that the buffer takes. -/
theorem push?_cases {key : Key} (hpush : b.push? key = some b') :
    (∃ c, key = .digit c ∧ c.isDigit = true ∧ b.pushDigit? c = some b') ∨ (key = .dot ∧ b.pushDot? = some b') ∨
      ∃ op, key = .operator op ∧ b.pushOperator? op = some b' := by
  cases key with
  | digit c =>
    have hpush : (if c.isDigit = true then b.pushDigit? c else none) = some b' := hpush
    by_cases hc : c.isDigit = true
    · rw [if_pos hc] at hpush
      exact Or.inl ⟨c, rfl, hc, hpush⟩
    · rw [if_neg hc] at hpush
      cases hpush
  | dot => exact Or.inr (Or.inl ⟨rfl, hpush⟩)
  | operator op => exact Or.inr (Or.inr ⟨op, rfl, hpush⟩)
  | percent => cases hpush
  | backspace => cases hpush
  | evaluate => cases hpush
  | clear => cases hpush

theorem Continues.push? {key : Key} (h : b.Continues) (hpush : b.push? key = some b') : b'.Continues := by
  rcases push?_cases hpush with ⟨c, -, -, hpush⟩ | ⟨-, hpush⟩ | ⟨op, -, hpush⟩
  · exact h.pushDigit? hpush
  · exact h.pushDot? hpush
  · exact h.pushOperator? hpush

theorem push?_ne_empty {key : Key} (hpush : b.push? key = some b') : b' ≠ {} := by
  rcases push?_cases hpush with ⟨c, -, -, hpush⟩ | ⟨-, hpush⟩ | ⟨op, -, hpush⟩
  · have hne := pushDigit?_ne_empty (b := b) c
    rwa [hpush] at hne
  · have hne := pushDot?_ne_empty (b := b)
    rwa [hpush] at hne
  · exact pushOperator?_ne_empty hpush

/-! ## Typing -/

theorem typed_onto (h : b.Continues) (key : Key) : (b.onto below).typed key = (b.typed key).onto below := by
  rw [typed, push?_onto below h, typed]
  cases b.push? key <;> rfl

theorem Continues.typed (h : b.Continues) (key : Key) : (b.typed key).Continues := by
  rw [Buffer.typed]
  cases hpush : b.push? key with
  | none => exact h
  | some b' => exact h.push? hpush

theorem typed_ne_empty (h : b ≠ {}) (key : Key) : b.typed key ≠ {} := by
  rw [typed]
  cases hpush : b.push? key with
  | none => exact h
  | some b' => exact push?_ne_empty hpush

/-- **Typing after an operator** does not depend on what stands before it. -/
theorem foldl_typed_onto (h : b.Continues) (keys : List Key) :
    keys.foldl typed (b.onto below) = (keys.foldl typed b).onto below := by
  induction keys generalizing b with
  | nil => rfl
  | cons key keys ih => rw [List.foldl_cons, List.foldl_cons, typed_onto below h, ih (h.typed key)]

theorem Continues.foldl_typed (h : b.Continues) (keys : List Key) : (keys.foldl Buffer.typed b).Continues := by
  induction keys generalizing b with
  | nil => exact h
  | cons key keys ih => exact ih (h.typed key)

end Buffer

/-! ## Continuations -/

/-- The buffer that holds an operator alone. -/
def Buffer.afterOperator (op : Operator) : Buffer := ⟨[.operator op]⟩

theorem Buffer.continues_afterOperator (op : Operator) : (Buffer.afterOperator op).Continues := ⟨[], op, rfl⟩

/-- The tokens that an operator key and the keys after it add to an operand. -/
def continuation (op : Operator) (keys : List Key) : List Token :=
  (keys.foldl Buffer.typed (Buffer.afterOperator op)).tokens

/-- They start with an operator, so that the operand before them is left as it is. -/
theorem continuation_first (op : Operator) (keys : List Key) : (Runs.ofTokens (continuation op keys)).first = [] := by
  obtain ⟨top, first, hstack⟩ := (Buffer.continues_afterOperator op).foldl_typed keys
  rw [continuation, Buffer.tokens, hstack, List.reverse_append]
  rfl

end Keypad
