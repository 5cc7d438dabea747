import Keypad.Power

/-!
# Keypad.Decimal.Digits — positional notation

* `padded`: the digits of a number, filled with zeros to a width.
* `withFraction`: whole and fractional digits joined by a point, which an empty fraction leaves out.
* `positional`: the text of `coefficient * 10 ^ exponent` without an exponent and without trailing zeros after the
  point.
-/

namespace Keypad.Decimal

/-- The decimal digits of `n`, with zeros in front up to the given width. -/
def padded (width n : Nat) : List Char :=
  let digits := Nat.toDigits 10 n
  List.replicate (width - digits.length) '0' ++ digits

/-- A digit string without its trailing zeros. -/
def dropTrailingZeros (digits : List Char) : List Char :=
  (digits.reverse.dropWhile (· == '0')).reverse

/-- Whole digits, then a point and the fractional digits if there are any. -/
def withFraction (whole fraction : List Char) : List Char :=
  if fraction.isEmpty then whole else whole ++ '.' :: fraction

/-- The text of `coefficient * 10 ^ exponent` in positional notation. -/
def positional (coefficient : Nat) (exponent : Int) : List Char :=
  if 0 ≤ exponent then Nat.toDigits 10 (coefficient * tenPow exponent.toNat)
  else
    let places := (-exponent).toNat
    withFraction (Nat.toDigits 10 (coefficient / tenPow places))
      (dropTrailingZeros (padded places (coefficient % tenPow places)))

end Keypad.Decimal
