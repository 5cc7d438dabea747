import Keypad.Text.Unprintable

/-!
# Keypad.Text.Quoted — quoted characters and strings in messages

* `escapeChar quote c`: how one character is written between the given quotes: `\0`, `\t`, `\r`, `\n`, the backslash
  and the quote itself with a backslash, a character without a glyph by its number, any other as it is.
* `quotedChar`, `quotedString`: a character in single quotes, a string in double quotes.
-/

namespace Keypad.Text

/-- A character by its number, as in `\u{301}`. -/
def numberEscape (c : Char) : List Char :=
  '\\' :: 'u' :: '\x7b' :: Nat.toDigits 16 c.toNat ++ ['\x7d']

/-- How one character is written between quotes. -/
def escapeChar (quote c : Char) : List Char :=
  if c = '\x00' then ['\\', '0']
  else if c = '\t' then ['\\', 't']
  else if c = '\r' then ['\\', 'r']
  else if c = '\n' then ['\\', 'n']
  else if c = '\\' ∨ c = quote then ['\\', c]
  else if isUnprintable c then numberEscape c
  else [c]

/-- A text between quotes. -/
def quoted (quote : Char) (text : List Char) : List Char := quote :: text.flatMap (escapeChar quote) ++ [quote]

/-- A character in single quotes. -/
def quotedChar (c : Char) : String := String.ofList (quoted '\'' [c])

/-- A string in double quotes. -/
def quotedString (text : String) : String := String.ofList (quoted '"' text.toList)

end Keypad.Text
