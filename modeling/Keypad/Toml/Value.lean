import Keypad.Binary64.Basic

/-!
# Keypad.Toml.Value — TOML values and tables

* `Value`: strings, numbers, booleans, dates and times, arrays, tables and arrays of tables.
* `Table`: keys in order, with the kind of definition that made the table; it decides how the table may be extended.
* `Table.insert?`: a key with a dotted path in front of it.  `Table.define?`: a table opened by a header.
-/

namespace Keypad.Toml

/-- How a table came to be defined. -/
inductive TableKind
  /-- The document itself, or a table with a header of its own. -/
  | explicit
  /-- The parent of a table with a header. -/
  | implicit
  /-- The parent of a dotted key. -/
  | dotted
  /-- A table written in one value. -/
  | inline
  deriving DecidableEq, Repr

/-- Keys with what they stand for, and the kind of definition. -/
structure TableOf (α : Type) where
  kind : TableKind
  entries : List (String × α) := []

/-- A TOML value. -/
inductive Value
  | string (text : String)
  | integer (n : Int)
  | float (x : Binary64)
  | boolean (value : Bool)
  /-- A date, a time, or both, as written. -/
  | dateTime (text : String)
  | array (items : List Value)
  /-- Tables with a common header in double brackets. -/
  | tables (items : List (TableOf Value))
  | table (table : TableOf Value)

/-- A TOML table. -/
abbrev Table := TableOf Value

namespace Table

/-- The value of a key. -/
def get? (t : Table) (key : String) : Option Value := t.entries.lookup key

/-- Gives a key a value, in place of its old one or at the end. -/
def set (t : Table) (key : String) (value : Value) : Table :=
  if (t.get? key).isSome then
    { t with entries := t.entries.map fun entry => if entry.1 == key then (key, value) else entry }
  else { t with entries := t.entries ++ [(key, value)] }

/-- Changes the table at the end of a path of keys.

Missing tables on the way are created, and an array of tables is entered at its last table.  A table written in one
value cannot be extended, and a dotted key cannot extend a table with a header. -/
def modify? (dotted : Bool) (path : List String) (change : Table → Option Table) (t : Table) : Option Table :=
  match path with
  | [] => change t
  | key :: rest =>
    match t.get? key with
    | none => do
      let created ← modify? dotted rest change { kind := if dotted then .dotted else .implicit }
      return t.set key (.table created)
    | some (.table sub) =>
      if sub.kind = .inline ∨ dotted ∧ sub.kind = .explicit then none
      else (modify? dotted rest change sub).map fun changed => t.set key (.table changed)
    | some (.tables subs) => do
      let last ← subs.getLast?
      let changed ← modify? dotted rest change last
      return t.set key (.tables (subs.dropLast ++ [changed]))
    | some _ => none

/-- Adds a key with a value.  A dotted path leads only to tables made by dotted keys, and no key is defined twice. -/
def insert? (t : Table) (path : List String) (key : String) (value : Value) : Option Table :=
  modify? true path (fun parent =>
    if (parent.kind = .dotted ↔ path ≠ []) ∧ (parent.get? key).isNone then some (parent.set key value)
    else none) t

/-- Adds keys in order. -/
def insertAll? (t : Table) (entries : List (List String × String × Value)) : Option Table :=
  entries.foldlM (fun t (path, key, value) => t.insert? path key value) t

/-- Defines the table of a header in single brackets.  It may stand already only as the parent of others. -/
def define? (t : Table) (path : List String) (key : String) (body : Table → Option Table) : Option Table :=
  modify? false path (fun parent => do
    let opened ← match parent.get? key with
      | none => some { kind := .explicit }
      | some (.table sub) => if sub.kind = .implicit then some { sub with kind := .explicit } else none
      | some _ => none
    return parent.set key (.table (← body opened))) t

/-- Adds a table to the array of a header in double brackets. -/
def append? (t : Table) (path : List String) (key : String) (body : Table → Option Table) : Option Table :=
  modify? false path (fun parent => do
    let before ← match parent.get? key with
      | none => some []
      | some (.tables subs) => some subs
      | some _ => none
    return parent.set key (.tables (before ++ [← body { kind := .explicit }]))) t

end Table

end Keypad.Toml
