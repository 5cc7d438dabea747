/-!
# Keypad.Text.Blank — white space

* `isBlank`: the characters with the property White_Space.
* `trim`: a text without the blanks at both ends.
-/

namespace Keypad.Text

/-- Whether a character is white space. -/
def isBlank (c : Char) : Bool :=
  let n := c.toNat
  9 ≤ n && n ≤ 13 || n == 0x20 || n == 0x85 || n == 0xA0 || n == 0x1680 || 0x2000 ≤ n && n ≤ 0x200A ||
    n == 0x2028 || n == 0x2029 || n == 0x202F || n == 0x205F || n == 0x3000

/-- A text without leading blanks. -/
def trimStart (text : List Char) : List Char := text.dropWhile isBlank

/-- A text without trailing blanks. -/
def trimEnd (text : List Char) : List Char := (trimStart text.reverse).reverse

/-- A text without the blanks at both ends. -/
def trim (text : List Char) : List Char := trimEnd (trimStart text)

end Keypad.Text
