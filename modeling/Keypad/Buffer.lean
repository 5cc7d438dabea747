import Keypad.Display
import Keypad.Token

/-!
# Keypad.Buffer — the expression typed so far

A buffer grows and shrinks at its end only, so it keeps its tokens with the last one first.

* `Buffer.tokens`, `Buffer.text`: the expression in reading order.
* `Buffer.currentNumber`: the text after the last operator, the number being entered; `currentWidth_eq`: its entries
  take as many characters as it has.
* `pushDigit?`, `pushDot?`, `pushOperator?`: the keys that extend it; `none` means that the key is refused.
* `pop`: removes the last displayed character.
-/

namespace Keypad

/-- The tokens of the expression being entered, the last one first. -/
structure Buffer where
  stack : List Token := []
  deriving DecidableEq, Repr

namespace Buffer

/-! ## Views -/

/-- The tokens in reading order. -/
def tokens (b : Buffer) : List Token := b.stack.reverse

/-- Whether nothing is entered. -/
def isEmpty (b : Buffer) : Bool := b.stack.isEmpty

/-- The expression as the display shows it. -/
def text (b : Buffer) : List Char := b.tokens.flatMap Token.text

/-- The tokens after the last operator, the last one first. -/
def trailing (b : Buffer) : List Token := b.stack.takeWhile fun t => !t.isOperator

/-- The text of the number being entered. -/
def currentNumber (b : Buffer) : List Char := b.trailing.reverse.flatMap Token.text

/-- The width of the number being entered. -/
def currentWidth (b : Buffer) : Nat := b.trailing.foldr (fun t width => t.width + width) 0

/-- The widths of the entries add up to that of the number's text. -/
theorem currentWidth_eq (b : Buffer) : b.currentWidth = b.currentNumber.length := by
  rw [currentWidth, currentNumber]
  induction b.trailing with
  | nil => rfl
  | cons t below ih =>
    rw [List.foldr_cons, ih, Token.width_eq, List.reverse_cons, List.flatMap_append, List.flatMap_singleton,
      List.length_append, Nat.add_comm]

/-- Whether the number being entered has a decimal point. -/
def dotUsed (b : Buffer) : Bool := b.trailing.any Token.hasDot

/-- Whether there is a number and no operator. -/
def isSingleNumber (b : Buffer) : Bool := !b.isEmpty && !b.stack.any Token.isOperator

/-! ## Replacing the contents -/

/-- The buffer with a single literal. -/
def seed (text : List Char) : Buffer := ⟨[.literal text]⟩

@[simp] theorem tokens_seed (text : List Char) : (seed text).tokens = [.literal text] := rfl

@[simp] theorem text_seed (text : List Char) : (seed text).text = text := by
  simp [Buffer.text, Token.text]

@[simp] theorem isSingleNumber_seed (text : List Char) : (seed text).isSingleNumber := rfl

@[simp] theorem currentNumber_seed (text : List Char) : (seed text).currentNumber = text := by
  simp [currentNumber, trailing, seed, Token.isOperator, Token.text]

/-! ## Extending -/

/-- Drops a number that is the single digit zero: a digit typed after it takes its place. -/
def dropLoneZero (b : Buffer) : Buffer :=
  if b.trailing = [.literal ['0']] then ⟨b.stack.tail⟩ else b

/-- Adds a digit to the last literal, or as a new one. -/
def appendDigit (digit : Char) : List Token → List Token
  | .literal t :: rest => .literal (t ++ [digit]) :: rest
  | stack => .literal [digit] :: stack

/-- Adds a digit to the number being entered, refused when the number fills the display. -/
def pushDigit? (b : Buffer) (digit : Char) : Option Buffer :=
  if displayWidth ≤ b.currentWidth then none
  else some ⟨appendDigit digit b.dropLoneZero.stack⟩

/-- Adds a decimal point, with a zero in front if no number is being entered.  A second point is refused, and so is one
that leaves no room. -/
def pushDot? (b : Buffer) : Option Buffer :=
  if b.dotUsed then none
  else if b.currentWidth = 0 then some ⟨.dot :: .literal ['0'] :: b.stack⟩
  else if displayWidth < b.currentWidth + 1 then none
  else some ⟨.dot :: b.stack⟩

/-- Adds an operator; it takes the place of one typed just before, and is refused without an operand. -/
def pushOperator? (b : Buffer) (op : Operator) : Option Buffer :=
  match b.stack with
  | [] => none
  | .operator _ :: rest => some ⟨.operator op :: rest⟩
  | stack => some ⟨.operator op :: stack⟩

/-! ## Removing -/

/-- Removes the last displayed character, and the token whose text would become empty. -/
def pop (b : Buffer) : Option Char × Buffer :=
  match b.stack with
  | [] => (none, b)
  | .literal t :: rest =>
    if 1 < t.length then (t.getLast?, ⟨.literal t.dropLast :: rest⟩) else (t.head?, ⟨rest⟩)
  | .dot :: rest => (some '.', ⟨rest⟩)
  | .operator op :: rest => (some op.symbol, ⟨rest⟩)

end Buffer

end Keypad
