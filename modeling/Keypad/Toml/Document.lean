import Keypad.Toml.Quoted
import Keypad.Toml.Scalar

/-!
# Keypad.Toml.Document — reading TOML documents

* `readKey`, `readValue`: dotted keys, and values nested up to a limit.
* `Statement`: a key with a value, or the header of a table; `readStatements` reads a document's statements.
* `Section`, `sections`: the statements under one header together.
* `parse?`: the table that a document defines.
-/

namespace Keypad.Toml

open Text Reader

/-! ## Blanks and comments -/

/-- Skips blanks within a line. -/
def skipBlanks : Reader Unit := skipWhile isBlank

/-- Skips blanks, line ends and comments; the flag tells whether the text starts within a comment. -/
def skipTrivia (comment : Bool) : Reader Unit
  | [] => some ((), [])
  | '\n' :: rest => skipTrivia false rest
  | '\r' :: '\n' :: rest => skipTrivia false rest
  | c :: rest =>
    if comment then if isTextChar c then skipTrivia true rest else none
    else if isBlank c then skipTrivia false rest
    else if c = '#' then skipTrivia true rest
    else some ((), c :: rest)

/-- The end of a statement's line: blanks, perhaps a comment, then a line end or the end of the text. -/
def endLine : Reader Unit := do
  skipBlanks
  if ← accept '#' then skipWhile isTextChar
  match ← peek? with
  | none => return ()
  | some '\r' => word ['\r', '\n']
  | some _ => expect '\n'

/-! ## Keys -/

/-- The characters of a key without quotes. -/
def isBareKeyChar (c : Char) : Bool := c.isAlphanum || c == '-' || c == '_'

/-- One part of a key. -/
def readKeyPart : Reader String := do
  match ← peek? with
  | some '"' | some '\'' => return String.ofList (← readQuotedKey)
  | _ => return String.ofList (← takeWhile1 isBareKeyChar)

/-- The greatest number of points in a dotted key, which then has eighty parts. -/
def pointLimit : Nat := 79

/-- A dotted key with at most so many points: the path in front of the last part, and the last part. -/
def readKeyUpTo : Nat → Reader (List String × String)
  | 0 => do
    let part ← readKeyPart
    skipBlanks
    return ([], part)
  | points + 1 => do
    let part ← readKeyPart
    skipBlanks
    if ← accept '.' then
      skipBlanks
      let (path, key) ← readKeyUpTo points
      return (part :: path, key)
    else return ([], part)

/-- A dotted key, and the blanks after it. -/
def readKey : Reader (List String × String) := readKeyUpTo pointLimit

/-! ## Values -/

/-- The greatest depth of arrays and tables written in one value. -/
def nestingLimit : Nat := 80

/-- A key, an equals sign, and a value, with the given gap on both sides of the sign. -/
def readEntry (gap : Reader Unit) (value : Reader Value) : Reader (List String × String × Value) := do
  let (path, key) ← readKey
  gap
  expect '='
  gap
  return (path, key, ← value)

/-- A value without parts. -/
def readSimple : Reader Value := do
  match ← peek? with
  | some '"' | some '\'' => return .string (String.ofList (← readQuoted))
  | _ => readScalar

/-- A table written in one value, with the given reader for the values in it.  Lines may end, and comments may stand,
between any two of its tokens except within a dotted key. -/
def readInline (value : Reader Value) : Reader Value := do
  let entries ← items '\x7d' (skipTrivia false) (readEntry (skipTrivia false) value)
  let table ← ofOption (Table.insertAll? { kind := .explicit } entries)
  return .table { table with kind := .inline }

/-- A value with at most so many levels of arrays and tables. -/
def readValue : Nat → Reader Value
  | 0 => readSimple
  | depth + 1 => do
    if ← accept '[' then return .array (← items ']' (skipTrivia false) (readValue depth))
    else if ← accept '\x7b' then readInline (readValue depth)
    else readSimple

/-! ## Statements -/

/-- One statement of a document. -/
inductive Statement
  | entry (path : List String) (key : String) (value : Value)
  /-- The header of a table. -/
  | table (path : List String) (key : String)
  /-- The header of one more table in an array. -/
  | tables (path : List String) (key : String)

/-- The key of a header, and the given closing brackets. -/
def readHeader (close : List Char) : Reader (List String × String) := do
  skipBlanks
  let header ← readKey
  word close
  return header

/-- One statement, to the end of its line. -/
def readStatement : Reader Statement := do
  let statement ← (do
    if ← accept '[' then
      if ← accept '[' then
        let (path, key) ← readHeader [']', ']']
        return .tables path key
      else
        let (path, key) ← readHeader [']']
        return .table path key
    else
      let (path, key, value) ← readEntry skipBlanks (readValue nestingLimit)
      return .entry path key value)
  endLine
  return statement

/-- The statements of a text that is not longer than the count. -/
def readStatementsUpTo : Nat → Reader (List Statement)
  | 0 => failure
  | count + 1 => do
    skipTrivia false
    match ← peek? with
    | none => return []
    | some _ => return (← readStatement) :: (← readStatementsUpTo count)

/-- The statements of a document; a byte order mark may stand in front of them. -/
def statements? (text : List Char) : Option (List Statement) :=
  let body := if text.head? = some '\ufeff' then text.tail else text
  readAll? (readStatementsUpTo (body.length + 1)) body

/-! ## Tables -/

/-- Keys with values, each with its path. -/
abbrev Entries := List (List String × String × Value)

/-- A header with the entries under it. -/
structure Section where
  array : Bool
  path : List String
  key : String
  entries : Entries

/-- The entries in front of the first header, and the sections. -/
def sections : List Statement → Entries × List Section
  | [] => ([], [])
  | .entry path key value :: rest =>
    let (entries, later) := sections rest
    ((path, key, value) :: entries, later)
  | .table path key :: rest =>
    let (entries, later) := sections rest
    ([], ⟨false, path, key, entries⟩ :: later)
  | .tables path key :: rest =>
    let (entries, later) := sections rest
    ([], ⟨true, path, key, entries⟩ :: later)

/-- Adds a section to a document's table. -/
def Section.addTo? (s : Section) (t : Table) : Option Table :=
  let body := fun table : Table => table.insertAll? s.entries
  if s.array then t.append? s.path s.key body else t.define? s.path s.key body

/-- The table that statements define. -/
def build? (statements : List Statement) : Option Table := do
  let (entries, later) := sections statements
  let root ← Table.insertAll? { kind := .explicit } entries
  later.foldlM (fun t s => s.addTo? t) root

/-- The table that a document defines. -/
def parse? (text : List Char) : Option Table := (statements? text).bind build?

end Keypad.Toml
