import Keypad.Decimal.Literal
import Keypad.Text.Reader
import Keypad.Toml.Value

/-!
# Keypad.Toml.Scalar — values written without quotes

* `ungroup?`: digits with single underscores between them.
* `integer?`, `float?`: decimal, hexadecimal, octal and binary integers; floating-point numbers.
* `readDateTime`: a date, a time of day, or both with or without an offset.
* `scalar?`: the value that an unquoted text stands for.
-/

namespace Keypad.Toml

open Text Reader

/-! ## Numbers -/

/-- The digits of a text in which single underscores may stand between digits. -/
def ungroup? (isDigit : Char → Bool) : List Char → Option (List Char)
  | [] => none
  | [c] => if isDigit c then some [c] else none
  | c :: '_' :: rest => if isDigit c then (ungroup? isDigit rest).map (c :: ·) else none
  | c :: d :: rest => if isDigit c then (ungroup? isDigit (d :: rest)).map (c :: ·) else none

/-- Decimal digits of which the first of several is not zero. -/
def plainDigits? (text : List Char) : Option (List Char) := do
  let digits ← ungroup? Char.isDigit text
  if digits.head? = some '0' ∧ 1 < digits.length then failure else return digits

/-- Digits in a base of at most sixteen. -/
def inBase? (base : Nat) (text : List Char) : Option Nat := do
  let digits ← ungroup? (fun c => (hexValue? c).any (· < base)) text
  digits.foldlM (fun n c => (hexValue? c).map (base * n + ·)) 0

/-- Integers are kept if they fit 128 bits, with or without a sign. -/
def fitsInteger (n : Int) : Bool := decide (-(twoPow 127 : Int) ≤ n) && decide (n < (twoPow 128 : Int))

/-- An integer of any size. -/
def wideInteger? : List Char → Option Int
  | '0' :: 'x' :: rest => (inBase? 16 rest).map (↑·)
  | '0' :: 'o' :: rest => (inBase? 8 rest).map (↑·)
  | '0' :: 'b' :: rest => (inBase? 2 rest).map (↑·)
  | text =>
    let (negative, digits) := Scientific.splitSign text
    (plainDigits? digits).map fun digits =>
      let magnitude : Nat := Nat.ofDigitChars 10 digits 0
      if negative then -(magnitude : Int) else magnitude

/-- An integer. -/
def integer? (text : List Char) : Option Int := (wideInteger? text).filter fitsInteger

/-- The exponent part of a floating-point number, none if it is absent. -/
def exponent? : List Char → Option (Option Int)
  | [] => some none
  | e :: rest =>
    if e = 'e' ∨ e = 'E' then
      let (negative, digits) := Scientific.splitSign rest
      (ungroup? Char.isDigit digits).map fun digits =>
        let magnitude : Nat := Nat.ofDigitChars 10 digits 0
        some (if negative then -(magnitude : Int) else magnitude)
    else none

/-- A decimal with a fraction, an exponent, or both. -/
def decimal? (text : List Char) : Option Scientific := do
  let isExponentMark := fun c => c == 'e' || c == 'E'
  let whole ← plainDigits? (text.takeWhile fun c => c != '.' && !isExponentMark c)
  match text.dropWhile fun c => c != '.' && !isExponentMark c with
  | '.' :: rest =>
    let fraction ← ungroup? Char.isDigit (rest.takeWhile fun c => !isExponentMark c)
    let exponent ← exponent? (rest.dropWhile fun c => !isExponentMark c)
    return ⟨Nat.ofDigitChars 10 (whole ++ fraction) 0, exponent.getD 0 - fraction.length⟩
  | rest => return ⟨Nat.ofDigitChars 10 whole 0, ← (← exponent? rest)⟩

/-- A floating-point number; one too large to be finite is refused. -/
def float? (text : List Char) : Option Binary64 :=
  let (negative, magnitude) := Scientific.splitSign text
  if magnitude = "inf".toList then some (.infinite negative)
  else if magnitude = "nan".toList then some .nan
  else (decimal? magnitude).bind fun n =>
    let value := Binary64.ofScientific negative n.coefficient n.exponent
    if value.isFinite then some value else none

/-! ## Dates and times -/

/-- A number of exactly so many digits. -/
def fixedDigits : Nat → Reader Nat
  | 0 => return 0
  | count + 1 => do
    let c ← next
    if !c.isDigit then failure
    return (c.toNat - '0'.toNat) * tenPow count + (← fixedDigits count)

/-- A number of two digits in a closed range. -/
def twoDigits (least greatest : Nat) : Reader Unit := do
  let n ← fixedDigits 2
  if least ≤ n ∧ n ≤ greatest then return () else failure

/-- Whether a year has a leap day. -/
def isLeapYear (year : Nat) : Bool := year % 4 == 0 && (year % 100 != 0 || year % 400 == 0)

/-- The number of days of a month. -/
def daysInMonth (year month : Nat) : Nat :=
  if month = 2 then if isLeapYear year then 29 else 28
  else if month ∈ [4, 6, 9, 11] then 30 else 31

/-- A calendar date. -/
def readDate : Reader Unit := do
  let year ← fixedDigits 4
  expect '-'
  let month ← fixedDigits 2
  if month < 1 ∨ 12 < month then failure
  expect '-'
  twoDigits 1 (daysInMonth year month)

/-- A time of day; the seconds and their fraction may be left out. -/
def readTime : Reader Unit := do
  twoDigits 0 23
  expect ':'
  twoDigits 0 59
  if ← accept ':' then
    twoDigits 0 60
    if ← accept '.' then
      let _ ← takeWhile1 Char.isDigit

/-- The offset from universal time, which may be left out. -/
def readOffset : Reader Unit := do
  if ← acceptIf fun c => c == 'Z' || c == 'z' then return ()
  if ← acceptIf fun c => c == '+' || c == '-' then
    twoDigits 0 23
    expect ':'
    twoDigits 0 59

/-- A date with a time and perhaps an offset, a date alone, or a time alone. -/
def readDateTime : Reader Unit :=
  (do
    readDate
    if ← acceptIf fun c => c == 'T' || c == 't' || c == ' ' then
      readTime
      readOffset) <|> readTime

/-- Whether a text is a date, a time, or both. -/
def isDateTime (text : List Char) : Bool := (readAll? readDateTime text).isSome

/-! ## All unquoted values -/

/-- The value that an unquoted text stands for. -/
def scalar? (text : List Char) : Option Value :=
  if text = "true".toList then some (.boolean true)
  else if text = "false".toList then some (.boolean false)
  else (integer? text).map .integer
    <|> (float? text).map .float
    <|> if isDateTime text then some (.dateTime (String.ofList text)) else none

/-- The characters of an unquoted value. -/
def isScalarChar (c : Char) : Bool := c.isAlphanum || c == '+' || c == '-' || c == '_' || c == '.' || c == ':'

/-- An unquoted value.  A single blank may stand between a date and a time. -/
def readScalar : Reader Value := do
  let text ← takeWhile1 isScalarChar
  let whole ← (do
    if (readAll? readDate text).isNone then failure
    expect ' '
    let time ← takeWhile1 isScalarChar
    if time.head?.any Char.isDigit then return text ++ ' ' :: time else failure) <|> pure text
  scalar? whole

end Keypad.Toml
