import Keypad.Operator

/-!
# Keypad.Key — the keys of the keypad

* `Key`: digits, the point, the operators, percent, and the editing keys.
* `Key.ofChar?`: the key of a character.
-/

namespace Keypad

/-- A key on the keypad. -/
inductive Key
  | digit (char : Char)
  | dot
  | operator (op : Operator)
  | percent
  | backspace
  | evaluate
  | clear
  deriving DecidableEq, Repr

/-- The key of a character. -/
def Key.ofChar? (c : Char) : Option Key :=
  if c.isDigit then some (digit c)
  else match c with
    | '.' => some dot
    | '%' => some percent
    | '=' => some evaluate
    | '<' => some backspace
    | 'c' | 'C' => some clear
    | c => (Operator.ofChar? c).map operator

end Keypad
