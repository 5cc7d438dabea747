import Keypad.Text.Reader

/-!
# Keypad.Toml.Quoted — quoted strings

A quoted string is read in two steps: the text up to the closing quotes is cut off, then its escapes are resolved.

* `readLine`, `readTriple`: the text up to the closing quote, or up to three of them.
* `unescape`, `verbatim?`: the string for such a text, with escapes and without.
* `readQuotedKey`, `readQuoted`: a string on one line; a string of any of the four kinds.
-/

namespace Keypad.Toml

open Text Reader

/-- The characters of comments and of strings on one line. -/
def isTextChar (c : Char) : Bool := c == '\t' || c ≥ ' ' && c != '\x7f'

/-- Blanks within a line. -/
def isBlank (c : Char) : Bool := c == ' ' || c == '\t'

/-! ## Cutting off -/

/-- The text up to the closing quote.  With escapes, a character after a backslash does not close. -/
def readLine (quote : Char) (escapes : Bool) : Reader (List Char)
  | [] => none
  | c :: rest =>
    if c = quote then some ([], rest)
    else if escapes ∧ c = '\\' then
      match rest with
      | [] => none
      | d :: rest => (readLine quote escapes rest).map fun (text, rest) => (c :: d :: text, rest)
    else (readLine quote escapes rest).map fun (text, rest) => (c :: text, rest)

/-- The text up to three closing quotes.  Up to two more quotes before them belong to the text. -/
def readTriple (quote : Char) (escapes : Bool) : Reader (List Char)
  | [] => none
  | c :: rest =>
    if c = quote ∧ [quote, quote].isPrefixOf rest then
      let extra := ((rest.drop 2).take 2).takeWhile (· == quote)
      some (extra, rest.drop (2 + extra.length))
    else if escapes ∧ c = '\\' then
      match rest with
      | [] => none
      | d :: rest => (readTriple quote escapes rest).map fun (text, rest) => (c :: d :: text, rest)
    else (readTriple quote escapes rest).map fun (text, rest) => (c :: text, rest)

/-! ## Resolving escapes -/

/-- The character of a single-letter escape. -/
def escape? : Char → Option Char
  | 'b' => some '\x08'
  | 't' => some '\t'
  | 'n' => some '\n'
  | 'f' => some '\x0c'
  | 'r' => some '\r'
  | 'e' => some '\x1b'
  | '"' => some '"'
  | '\\' => some '\\'
  | _ => none

/-- The character of an escape by number, which may not be a surrogate. -/
def numbered? (digits : List Char) : Option Char :=
  (hexNumber? digits).bind fun n => if n.isValidChar then some (Char.ofNat n) else none

/-- Whether a text starts with a line end. -/
def startsNewline : List Char → Bool
  | '\n' :: _ => true
  | '\r' :: '\n' :: _ => true
  | _ => false

/-- Whether a character may stand in a string of one line, or of several, in front of the given rest. -/
def isAllowed (lines : Bool) (c : Char) (rest : List Char) : Bool :=
  isTextChar c || lines && startsNewline (c :: rest)

/-- The string for a text with escapes.

In a string of several lines a backslash at the end of a line skips the line end and all blanks and line ends after
it. -/
def unescape (lines skipping : Bool) : List Char → Option (List Char)
  | [] => some []
  | '\\' :: 'x' :: a :: b :: rest => do return (← numbered? [a, b]) :: (← unescape lines false rest)
  | '\\' :: 'u' :: a :: b :: c :: d :: rest => do
    return (← numbered? [a, b, c, d]) :: (← unescape lines false rest)
  | '\\' :: 'U' :: a :: b :: c :: d :: e :: f :: g :: h :: rest => do
    return (← numbered? [a, b, c, d, e, f, g, h]) :: (← unescape lines false rest)
  | '\\' :: e :: rest =>
    if lines ∧ startsNewline ((e :: rest).dropWhile isBlank) then unescape lines true (e :: rest)
    else do return (← escape? e) :: (← unescape lines false rest)
  | c :: rest =>
    if skipping ∧ (isBlank c ∨ startsNewline (c :: rest)) then unescape lines true rest
    else if c ≠ '\\' ∧ isAllowed lines c rest then (unescape lines false rest).map (c :: ·)
    else none

/-- The string for a text without escapes. -/
def verbatim? (lines : Bool) : List Char → Option (List Char)
  | [] => some []
  | c :: rest => if isAllowed lines c rest then (verbatim? lines rest).map (c :: ·) else none

/-- Drops a line end at the front of a text. -/
def dropNewline : List Char → List Char
  | '\n' :: rest => rest
  | '\r' :: '\n' :: rest => rest
  | text => text

/-! ## Strings -/

/-- The reader that succeeds with a given value, if there is one. -/
def ofOption (value : Option α) : Reader α := fun text => value.map (·, text)

/-- A string on one line in quotes of either kind. -/
def readQuotedKey : Reader (List Char) := do
  if ← accept '"' then ofOption (unescape false false (← readLine '"' true))
  else
    expect '\''
    ofOption (verbatim? false (← readLine '\'' false))

/-- A quoted string.  A line end just after three opening quotes is dropped. -/
def readQuoted : Reader (List Char) :=
  (do
    word ['"', '"', '"']
    ofOption (unescape true false (dropNewline (← readTriple '"' true)))) <|>
  (do
    word ['\'', '\'', '\'']
    ofOption (verbatim? true (dropNewline (← readTriple '\'' false)))) <|>
  readQuotedKey

end Keypad.Toml
