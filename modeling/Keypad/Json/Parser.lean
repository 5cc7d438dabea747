import Keypad.Json.Basic
import Keypad.Text.Reader

/-!
# Keypad.Json.Parser — reading JSON

* `Json.StringPart`, `Json.decodeParts`: the parts of a string, and the text they stand for; two `\u` escapes that form
  a surrogate pair are one character.
* `Json.readParts`, `Json.number`: strings and numbers.
* `Json.readValue`: a value of any kind; nesting is limited by the length of the text alone.
* `Json.parse?`: a text that holds one value and nothing else but blanks.
-/

namespace Keypad.Json

open Text Reader

/-! ## Strings -/

/-- A part of a string: a character, or a 16-bit unit given by number. -/
inductive StringPart
  | plain (c : Char)
  | unit (n : Nat)
  deriving DecidableEq, Repr

/-- The character of a single-letter escape. -/
def escape? : Char → Option Char
  | '"' => some '"'
  | '\\' => some '\\'
  | '/' => some '/'
  | 'b' => some '\x08'
  | 'f' => some '\x0c'
  | 'n' => some '\n'
  | 'r' => some '\r'
  | 't' => some '\t'
  | _ => none

/-- The parts of a string after its opening quote.  Control characters have to be escaped. -/
def readParts : Reader (List StringPart)
  | [] => none
  | '"' :: rest => some ([], rest)
  | '\\' :: 'u' :: a :: b :: c :: d :: rest => do
    let n ← hexNumber? [a, b, c, d]
    let (parts, rest) ← readParts rest
    return (.unit n :: parts, rest)
  | '\\' :: e :: rest => do
    let c ← escape? e
    let (parts, rest) ← readParts rest
    return (.plain c :: parts, rest)
  | c :: rest => do
    if c < ' ' then failure
    let (parts, rest) ← readParts rest
    return (.plain c :: parts, rest)

/-- The first unit of a surrogate pair. -/
def isHighSurrogate (n : Nat) : Bool := 0xD800 ≤ n && n < 0xDC00

/-- The second unit of a surrogate pair. -/
def isLowSurrogate (n : Nat) : Bool := 0xDC00 ≤ n && n < 0xE000

/-- The text of a string, none if a surrogate has no partner. -/
def decodeParts : List StringPart → Option (List Char)
  | [] => some []
  | .plain c :: rest => (decodeParts rest).map (c :: ·)
  | .unit n :: .unit m :: rest =>
    if isHighSurrogate n then
      if isLowSurrogate m then
        (decodeParts rest).map (Char.ofNat (0x10000 + (n - 0xD800) * 0x400 + (m - 0xDC00)) :: ·)
      else none
    else if isLowSurrogate n then none
    else (decodeParts (.unit m :: rest)).map (Char.ofNat n :: ·)
  | .unit n :: rest =>
    if isHighSurrogate n || isLowSurrogate n then none else (decodeParts rest).map (Char.ofNat n :: ·)

/-- A string after its opening quote. -/
def readString : Reader (Option String) := do
  let parts ← readParts
  return (decodeParts parts).map String.ofList

/-! ## Numbers -/

/-- The fractional digits of a number: none without a point, at least one after it. -/
def readFraction : Reader (List Char) := do
  if ← accept '.' then takeWhile1 Char.isDigit else return []

/-- The exponent of a number, if there is one. -/
def readExponent : Reader (Option Int) := do
  if ← acceptIf fun c => c == 'e' || c == 'E' then
    let negative ← accept '-'
    if !negative then let _ ← accept '+'
    let digits ← takeWhile1 Char.isDigit
    let magnitude : Nat := Nat.ofDigitChars 10 digits 0
    return some (if negative then -(magnitude : Int) else magnitude)
  else return none

/-- A number.  A whole part of several digits does not start with zero. -/
def readNumber : Reader Number := do
  let negative ← accept '-'
  let whole ← takeWhile1 Char.isDigit
  if whole.head? = some '0' ∧ 1 < whole.length then failure
  let fraction ← readFraction
  let exponent ← readExponent
  return { negative, whole, fraction, exponent }

/-! ## Values -/

/-- The blanks between JSON tokens. -/
def isBlank (c : Char) : Bool := c == ' ' || c == '\t' || c == '\n' || c == '\r'

/-- Skips blanks. -/
def skipBlanks : Reader Unit := skipWhile isBlank

/-- The name of a member, and the colon after it. -/
def readName : Reader (Option String) := do
  skipBlanks
  expect '"'
  let name ← readString
  skipBlanks
  expect ':'
  return name

mutual

/-- A value, with blanks in front of it.  The first argument bounds the depth of the recursion. -/
def readValue : Nat → Reader Json
  | 0 => failure
  | fuel + 1 => do
    skipBlanks
    match ← peek? with
    | some 'n' => word "null".toList; return .null
    | some 't' => word "true".toList; return .bool true
    | some 'f' => word "false".toList; return .bool false
    | some '"' => expect '"'; return .string (← readString)
    | some '[' =>
      expect '['; skipBlanks
      if ← accept ']' then return .array [] else return .array (← readItems fuel)
    | some '\x7b' =>
      expect '\x7b'; skipBlanks
      if ← accept '\x7d' then return .object [] else return .object (← readMembers fuel)
    | _ => return .number (← readNumber)

/-- The items of an array up to its closing bracket; there is at least one. -/
def readItems : Nat → Reader (List Json)
  | 0 => failure
  | fuel + 1 => do
    let item ← readValue fuel
    skipBlanks
    if ← accept ',' then return item :: (← readItems fuel)
    else expect ']'; return [item]

/-- The members of an object up to its closing brace; there is at least one. -/
def readMembers : Nat → Reader (List (Option String × Json))
  | 0 => failure
  | fuel + 1 => do
    let name ← readName
    let member := (name, ← readValue fuel)
    skipBlanks
    if ← accept ',' then return member :: (← readMembers fuel)
    else expect '\x7d'; return [member]

end

/-- The value that a text holds.  Each level of nesting and each item takes a character, which bounds the recursion. -/
def parse? (text : List Char) : Option Json :=
  readAll? (do let v ← readValue (2 * text.length + 2); skipBlanks; return v) text

end Keypad.Json
