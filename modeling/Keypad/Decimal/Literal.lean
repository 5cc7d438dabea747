import Keypad.Binary64.Basic

/-!
# Keypad.Decimal.Literal — reading decimal numbers

* `Binary64.ofScientific`: the number nearest to a coefficient times a power of ten.
* `Scientific.read?`: the grammar of an unsigned decimal numeral: digits with at most one point, at least one
  digit, and an optional exponent.
* `Binary64.read?`: a signed numeral, or `inf`, `infinity` or `nan` in any case.  No blanks, no separators.
-/

namespace Keypad

/-! ## Numbers from scientific notation -/

/-- The number nearest to `coefficient * 10 ^ exponent`.

Exponents far outside the range decide the result alone, so that no huge power is computed: above 400 a coefficient
of one is already infinite, and a coefficient has fewer decimal digits than bits. -/
def Binary64.ofScientific (negative : Bool) (coefficient : Nat) (exponent : Int) : Binary64 :=
  if coefficient = 0 then signedZero negative
  else if 400 < exponent then infinite negative
  else if exponent + coefficient.log2 < -400 then signedZero negative
  else if 0 ≤ exponent then ofUnits negative (coefficient * tenPow exponent.toNat * unitsPerOne)
  else ofRatio negative (coefficient * unitsPerOne) (tenPow (-exponent).toNat)

/-- An unsigned number in scientific notation: `coefficient * 10 ^ exponent`. -/
structure Scientific where
  coefficient : Nat
  exponent : Int
  deriving DecidableEq

namespace Scientific

/-! ## The grammar of numerals -/

/-- Splits a text after its leading ASCII digits. -/
def spanDigits (text : List Char) : List Char × List Char :=
  (text.takeWhile Char.isDigit, text.dropWhile Char.isDigit)

/-- A sign at the front of a text (`-` is negative), and the text after it. -/
def splitSign : List Char → Bool × List Char
  | '-' :: rest => (true, rest)
  | '+' :: rest => (false, rest)
  | text => (false, text)

/-- The text of an exponent after its `e`: an optional sign and at least one digit, to the end of the text. -/
def readExponent? (text : List Char) : Option Int :=
  let (negative, digits) := splitSign text
  if digits.isEmpty || !digits.all Char.isDigit then none
  else
    let magnitude : Nat := Nat.ofDigitChars 10 digits 0
    some (if negative then -(magnitude : Int) else magnitude)

/-- The fractional digits of a numeral, and the text after them: none without a point. -/
def splitFraction : List Char → List Char × List Char
  | '.' :: rest => spanDigits rest
  | text => ([], text)

/-- Reads an unsigned numeral such as `12`, `5.`, `.5` or `1e-7`; the whole text has to be one numeral. -/
def read? (text : List Char) : Option Scientific :=
  let (whole, afterWhole) := spanDigits text
  let (fraction, afterFraction) := splitFraction afterWhole
  let digits := whole ++ fraction
  let coefficient := Nat.ofDigitChars 10 digits 0
  if digits.isEmpty then none
  else match afterFraction with
    | [] => some ⟨coefficient, -(fraction.length : Int)⟩
    | e :: rest =>
      if e = 'e' ∨ e = 'E' then
        (readExponent? rest).map fun shift => ⟨coefficient, shift - fraction.length⟩
      else none

end Scientific

/-- Reads a number: an optional sign, then a numeral, `inf`, `infinity` or `nan`.  The value is exactly rounded. -/
def Binary64.read? (text : List Char) : Option Binary64 :=
  let (negative, magnitude) := Scientific.splitSign text
  let word := magnitude.map Char.toLower
  if word = "inf".toList ∨ word = "infinity".toList then some (infinite negative)
  else if word = "nan".toList then some nan
  else (Scientific.read? magnitude).map fun n => ofScientific negative n.coefficient n.exponent

end Keypad
