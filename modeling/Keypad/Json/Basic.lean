import Keypad.Binary64.Arith

/-!
# Keypad.Json.Basic — JSON values

* `Json`: the values, with numbers as they are written and object members in order.
* `Json.Number`: sign, whole and fractional digits and exponent of a written number.
* `Number.integer?`: the integer that a number without fraction and exponent denotes.
* `Number.toBinary64?`: a number as binary floating point: the digits that fit 64 bits are taken as a whole number,
  which is then scaled by powers of ten, each step rounded; a result beyond the finite range is refused.
-/

namespace Keypad

/-- A number as it is written.  An empty fraction means that there is no point. -/
structure Json.Number where
  negative : Bool
  whole : List Char
  fraction : List Char
  exponent : Option Int
  deriving DecidableEq, Repr

/-- A JSON value.  A string or name with half of a surrogate pair has no text. -/
inductive Json
  | null
  | bool (value : Bool)
  | number (number : Json.Number)
  | string (text : Option String)
  | array (items : List Json)
  | object (members : List (Option String × Json))

namespace Json.Number

/-- The integer that a number denotes, if it is written without fraction and exponent and is not `-0`. -/
def integer? (n : Number) : Option Int :=
  let magnitude := Nat.ofDigitChars 10 n.whole 0
  if n.fraction.isEmpty ∧ n.exponent = none ∧ ¬(n.negative ∧ magnitude = 0) then
    some (if n.negative then -(magnitude : Int) else magnitude)
  else none

/-! ## Conversion to binary floating point -/

/-- Significands are below this bound. -/
def significandLimit : Nat := twoPow 64

/-- The significand extended by one digit, if it still fits.  A `match` on it must not unfold the comparison with the
limit, which is too large to count to. -/
@[irreducible]
def extend? (significand : Nat) (digit : Char) : Option Nat :=
  let extended := 10 * significand + (digit.toNat - '0'.toNat)
  if extended < significandLimit then some extended else none

/-- Takes the whole digits into the significand until one does not fit; the number of digits left out is returned. -/
def takeWhole (significand : Nat) : List Char → Nat × Nat
  | [] => (significand, 0)
  | d :: rest =>
    match extend? significand d with
    | some extended => takeWhole extended rest
    | none => (significand, rest.length + 1)

/-- Takes fractional digits into the significand until one does not fit; the number of digits taken is returned. -/
def takeFraction (significand taken : Nat) : List Char → Nat × Nat
  | [] => (significand, taken)
  | d :: rest =>
    match extend? significand d with
    | some extended => takeFraction extended (taken + 1) rest
    | none => (significand, taken)

/-- Significand and decimal exponent of a number. -/
def scientific (n : Number) : Nat × Int :=
  let (whole, dropped) := takeWhole 0 n.whole
  let (significand, taken) := takeFraction whole 0 n.fraction
  (significand, (dropped : Int) - taken + n.exponent.getD 0)

/-- The greatest power of ten that scales in one step. -/
def scaleStep : Nat := 308

/-- The power of ten, correctly rounded. -/
def powerOfTen (k : Nat) : Binary64 := .ofNat (tenPow k)

/-- Scales by a power of ten, in several steps if it is a large negative one; an infinite result is refused. -/
def scale? (value : Binary64) (exponent : Int) : Option Binary64 :=
  if exponent.natAbs ≤ scaleStep then
    if 0 ≤ exponent then
      let scaled := value * powerOfTen exponent.natAbs
      if scaled.isFinite then some scaled else none
    else some (value / powerOfTen exponent.natAbs)
  else if value.isZero then some value
  else if 0 ≤ exponent then none
  else scale? (value / powerOfTen scaleStep) (exponent + scaleStep)
termination_by exponent.natAbs
decreasing_by simp only [scaleStep] at *; omega

/-- The number as binary floating point. -/
def toBinary64? (n : Number) : Option Binary64 :=
  let (significand, exponent) := n.scientific
  (scale? (.ofNat significand) exponent).map fun value => if n.negative then -value else value

end Json.Number

end Keypad
