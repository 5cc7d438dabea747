import Keypad.Decimal.Shortest

/-!
# Keypad.Display — numbers on the display

* `carriedText`: a number in full, as it is carried into the next expression.  A whole number below `10 ^ 15` is
  written as an integer, so that negative zero shows no sign; any other number in its shortest text.
* `displayText`: the first nine characters of the carried text, cut and not rounded.
-/

namespace Keypad

/-- The widest number that the display shows, in characters. -/
def displayWidth : Nat := 9

/-- Whole numbers from here on are written by their shortest digits. -/
def wholeLimit : Nat := tenPow 15

/-- The text of an integer given by sign and magnitude; zero has no sign. -/
def integerText (negative : Bool) (magnitude : Nat) : List Char :=
  Binary64.signText (negative && magnitude != 0) ++ Nat.toDigits 10 magnitude

/-- The text of a number in full. -/
def carriedText (value : Binary64) : List Char :=
  match value with
  | .finite s n _ =>
    if value.isWhole ∧ n < wholeLimit * unitsPerOne then integerText s (n / unitsPerOne) else value.text
  | _ => value.text

/-- A text cut to the width of the display. -/
def fitDisplay (text : List Char) : List Char := text.take displayWidth

/-- The text of a number on the display. -/
def displayText (value : Binary64) : List Char := fitDisplay (carriedText value)

end Keypad
