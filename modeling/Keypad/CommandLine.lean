import Keypad.Config

/-!
# Keypad.CommandLine — the arguments of the program

* `Arguments`: a key script and the settings that take the place of configured ones.
* `Arguments.parse?`: reads an argument list.  Options are written in full and given at most once, with their value
  after an equals sign or as the next argument; after `--` everything is a script.
-/

namespace Keypad

/-- The options that take a value. -/
inductive Setting
  | source
  | target
  | rates
  | config
  deriving DecidableEq, Repr

namespace Setting

/-- The option of a name. -/
def ofName? (name : List Char) : Option Setting :=
  if name = "from".toList then some source
  else if name = "to".toList then some target
  else if name = "rates".toList then some rates
  else if name = "config".toList then some config
  else none

/-- Whether the value names a file, and so may not be empty. -/
def isPath : Setting → Bool
  | rates | config => true
  | source | target => false

end Setting

/-- The arguments of the program. -/
structure Arguments where
  /-- The script to run; without one, lines are read from the input. -/
  keys : Option String := none
  source : Option String := none
  target : Option String := none
  rates : Option String := none
  config : Option String := none
  /-- Whether the final display is copied to the clipboard. -/
  copy : Bool := false
  deriving DecidableEq, Repr

namespace Arguments

/-- The value given for an option. -/
def get? (a : Arguments) : Setting → Option String
  | .source => a.source
  | .target => a.target
  | .rates => a.rates
  | .config => a.config

/-- Gives an option its value, unless it has one or the value cannot be used. -/
def set? (a : Arguments) (setting : Setting) (value : String) : Option Arguments :=
  if (a.get? setting).isSome ∨ setting.isPath ∧ value.isEmpty then none
  else some <| match setting with
    | .source => { a with source := some value }
    | .target => { a with target := some value }
    | .rates => { a with rates := some value }
    | .config => { a with config := some value }

/-- Takes the script, unless there is one. -/
def setKeys? (a : Arguments) (keys : String) : Option Arguments :=
  if a.keys.isSome then none else some { a with keys := some keys }

/-- Takes the flag for copying, unless it was given. -/
def setCopy? (a : Arguments) : Option Arguments := if a.copy then none else some { a with copy := true }

/-- Whether an argument looks like an option, so that it is no value.  A single dash does not. -/
def isFlag (argument : String) : Bool :=
  match argument.toList with
  | '-' :: _ :: _ => true
  | _ => false

/-- Adds the arguments of a list. -/
def addAll? (a : Arguments) : List String → Option Arguments
  | [] => some a
  | argument :: rest =>
    match argument.toList with
    | ['-', '-'] => rest.foldlM setKeys? a
    | '-' :: '-' :: option =>
      let name := option.takeWhile (· != '=')
      if name = "copy".toList ∧ option = name then a.setCopy?.bind (·.addAll? rest)
      else match Setting.ofName? name, option.dropWhile (· != '='), rest with
        | some setting, _ :: value, rest => (a.set? setting (String.ofList value)).bind (·.addAll? rest)
        | some setting, [], value :: rest =>
          if isFlag value then none else (a.set? setting value).bind (·.addAll? rest)
        | _, _, _ => none
    | '-' :: _ :: _ => none
    | _ => (a.setKeys? argument).bind (·.addAll? rest)

/-- Reads an argument list. -/
def parse? (arguments : List String) : Option Arguments := addAll? {} arguments

/-- The configuration with the settings of the arguments in place of configured ones. -/
def override (a : Arguments) (c : Config) : Config :=
  { c with
    source := a.source.getD c.source
    target := a.target.getD c.target
    ratesFile := a.rates <|> c.ratesFile }

end Arguments

end Keypad
