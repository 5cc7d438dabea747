/-!
# Keypad.Text.Reader — readers of text

A `Reader α` takes a value from the front of a text and leaves the rest, or fails.

* `next`, `expect`, `acceptIf`, `accept`, `word`: single characters and fixed words.
* `takeWhile`, `takeWhile1`, `skipWhile`: characters of a class.
* `items`: a list with commas and a closing character.
* `Reader.readAll?`: the value of a text that is read to its end.
-/

namespace Keypad.Text

/-- Takes a value from the front of a text, or fails. -/
abbrev Reader := StateT (List Char) Option

namespace Reader

/-- The next character, which stays. -/
def peek? : Reader (Option Char) := fun text => some (text.head?, text)

/-- The next character. -/
def next : Reader Char
  | [] => none
  | c :: rest => some (c, rest)

/-- The given character. -/
def expect (c : Char) : Reader Unit := do
  if (← next) = c then return () else failure

/-- Takes the next character if it is in a class. -/
def acceptIf (p : Char → Bool) : Reader Bool
  | c :: rest => if p c then some (true, rest) else some (false, c :: rest)
  | [] => some (false, [])

/-- Takes the given character if it is the next one. -/
def accept (c : Char) : Reader Bool := acceptIf (· == c)

/-- The given characters in order. -/
def word : List Char → Reader Unit
  | [] => return ()
  | c :: rest => do
    expect c
    word rest

/-- The longest run of characters of a class. -/
def takeWhile (p : Char → Bool) : Reader (List Char) := fun text => some (text.takeWhile p, text.dropWhile p)

/-- The longest run of characters of a class, which may not be empty. -/
def takeWhile1 (p : Char → Bool) : Reader (List Char) := do
  let run ← takeWhile p
  if run.isEmpty then failure else return run

/-- Drops the longest run of characters of a class. -/
def skipWhile (p : Char → Bool) : Reader Unit := fun text => some ((), text.dropWhile p)

/-- Items separated by commas up to a closing character; a comma may stand before it.  Every item takes a character,
so the count bounds no list of a text that is not longer. -/
def itemsUpTo (close : Char) (skip : Reader Unit) (item : Reader α) : Nat → Reader (List α)
  | 0 => failure
  | count + 1 => do
    skip
    if ← accept close then return []
    let first ← item
    skip
    if ← accept ',' then return first :: (← itemsUpTo close skip item count)
    expect close
    return [first]

/-- Items separated by commas up to a closing character; a comma may stand before it. -/
def items (close : Char) (skip : Reader Unit) (item : Reader α) : Reader (List α) := fun text =>
  itemsUpTo close skip item (text.length + 1) text

/-- The value of a text that a reader consumes whole. -/
def readAll? (r : Reader α) (text : List Char) : Option α :=
  match r text with
  | some (value, []) => some value
  | _ => none

end Reader

/-- The value of a hexadecimal digit in either case. -/
def hexValue? (c : Char) : Option Nat :=
  if '0' ≤ c ∧ c ≤ '9' then some (c.toNat - '0'.toNat)
  else if 'a' ≤ c ∧ c ≤ 'f' then some (c.toNat - 'a'.toNat + 10)
  else if 'A' ≤ c ∧ c ≤ 'F' then some (c.toNat - 'A'.toNat + 10)
  else none

/-- The number written by hexadecimal digits, the most significant first. -/
def hexNumber? (digits : List Char) : Option Nat :=
  digits.foldlM (fun n c => (hexValue? c).map (16 * n + ·)) 0

end Keypad.Text
