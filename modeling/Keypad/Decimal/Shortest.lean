import Keypad.Decimal.Digits
import Keypad.Decimal.Literal

/-!
# Keypad.Decimal.Shortest — the fewest digits that read back

* `shortest`: the decimal of fewest significant digits whose nearest number is the given one; of two such decimals
  on one grid the nearer, and of two equally near the greater.
* `Binary64.text`: that decimal in positional notation, with a sign.
-/

namespace Keypad

namespace Decimal

/-- The least `k` with `units * 2 ^ -1074 < 10 ^ k`, for a positive number of units. -/
def pointPosition (units : Nat) : Int :=
  ((Nat.toDigits 10 (units * tenPow 400 / unitsPerOne)).length : Int) - 400

/-- A number of units as a fraction of `10 ^ exponent`. -/
def gridRatio (units : Nat) (exponent : Int) : Nat × Nat :=
  if 0 ≤ exponent then (units, unitsPerOne * tenPow exponent.toNat)
  else (units * tenPow (-exponent).toNat, unitsPerOne)

/-- Whether the decimal `coefficient * 10 ^ exponent` reads as the given number of units. -/
def readsBack (units coefficient : Nat) (exponent : Int) : Bool :=
  (Binary64.ofScientific false coefficient exponent).units? == some (units : Int)

/-- The multiple of `10 ^ exponent` that reads back: the neighbour below or above, the nearer if both do. -/
def readsBackAt? (units : Nat) (exponent : Int) : Option Nat :=
  let (num, den) := gridRatio units exponent
  let below := num / den
  match readsBack units below exponent, readsBack units (below + 1) exponent with
  | true, true => some (if 2 * (num % den) < den then below else below + 1)
  | true, false => some below
  | false, true => some (below + 1)
  | false, false => none

/-- A count of units of `2 ^ -k` as a decimal: the same value, since `2 ^ -k = 5 ^ k * 10 ^ -k`. -/
def exactDecimal (k units : Nat) : Nat × Int := (units * Nat.pow 5 k, -(k : Int))

/-- The shortest decimal of a positive number of units, as coefficient and exponent.

Seventeen digits always suffice; the exact expansion stands behind them so that the result reads back by
construction. -/
def shortest (units : Nat) : Nat × Int :=
  let k := pointPosition units
  let found := (List.range 17).findSome? fun j =>
    let exponent := k - (j + 1 : Nat)
    (readsBackAt? units exponent).map (·, exponent)
  found.getD (exactDecimal 1074 units)

end Decimal

namespace Binary64

/-- The sign of a number as it is written. -/
def signText (negative : Bool) : List Char := if negative then ['-'] else []

/-- The shortest text of a magnitude in units. -/
def magnitudeText (units : Nat) : List Char :=
  if units = 0 then ['0']
  else
    let (coefficient, exponent) := Decimal.shortest units
    Decimal.positional coefficient exponent

/-- The shortest text that reads back as the number, never in exponent notation. -/
def text : Binary64 → List Char
  | nan => "NaN".toList
  | infinite s => signText s ++ "inf".toList
  | finite s n _ => signText s ++ magnitudeText n

end Binary64

end Keypad
