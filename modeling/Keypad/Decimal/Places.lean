import Keypad.Decimal.Shortest

/-!
# Keypad.Decimal.Places — a fixed number of decimal places

`Binary64.fixedText`: the exact value rounded to a number of places, a tie going to the even digit.  The sign is kept
even when only zeros are left.
-/

namespace Keypad.Binary64

/-- A magnitude in units with the given number of decimal places. -/
def fixedMagnitude (places units : Nat) : List Char :=
  let scaled := roundHalfEven (units * tenPow places) unitsPerOne
  Decimal.withFraction (Nat.toDigits 10 (scaled / tenPow places))
    (if places = 0 then [] else Decimal.padded places (scaled % tenPow places))

/-- The number with the given number of decimal places. -/
def fixedText (places : Nat) : Binary64 → List Char
  | finite s n _ => signText s ++ fixedMagnitude places n
  | x => x.text

end Keypad.Binary64
