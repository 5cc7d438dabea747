import Keypad.Json.Parser
import Keypad.Rate.Table

/-!
# Keypad.Rate.Response — rate tables from a provider's answer

An answer is a JSON object with the members `result`, `base_code`, `conversion_rates` and perhaps
`time_last_update_unix`, in any order, or an array of the four values.

* `Response.ofJson?`: the answer that a JSON value holds.  A known member may not be repeated; others are ignored.
* `RateTable.ofJson`: the table of a successful answer.
-/

namespace Keypad

/-- A provider's answer. -/
structure Response where
  result : String
  baseCode : String
  updatedAt : Option Int
  rates : List (String × Binary64)
  deriving DecidableEq

namespace Response

/-! ## Values -/

/-- The text of a string value. -/
def text? : Json → Option String
  | .string text => text
  | _ => none

/-- A time in seconds: an integer of 64 bits with sign, or null. -/
def time? : Json → Option (Option Int)
  | .null => some none
  | .number n => do
    let t ← n.integer?
    if -(twoPow 63 : Int) ≤ t ∧ t < (twoPow 63 : Int) then return some t else failure
  | _ => none

/-- The rate of one currency. -/
def rate? : Json → Option Binary64
  | .number n => n.toBinary64?
  | _ => none

/-- The names and values of an object's members, if every name is a text. -/
def named? (members : List (Option String × Json)) : Option (List (String × Json)) :=
  members.mapM fun (name, value) => name.map (·, value)

/-- The rates of all currencies. -/
def rates? : Json → Option (List (String × Binary64))
  | .object members => do
    (← named? members).mapM fun (code, value) => (rate? value).map (code, ·)
  | _ => none

/-! ## Members -/

/-- The values of the members of a name. -/
def valuesOf (name : String) (members : List (String × Json)) : List Json :=
  (members.filter fun m => m.1 == name).map Prod.snd

/-- The value of a member that occurs exactly once. -/
def one? (name : String) (members : List (String × Json)) : Option Json :=
  match valuesOf name members with
  | [value] => some value
  | _ => none

/-- The value of a member that occurs at most once. -/
def atMostOne? (name : String) (members : List (String × Json)) : Option (Option Json) :=
  match valuesOf name members with
  | [] => some none
  | [value] => some (some value)
  | _ => none

/-- The answer with the given values. -/
def ofValues? (result baseCode : Json) (time : Option Json) (rates : Json) : Option Response := do
  return {
    result := ← text? result
    baseCode := ← text? baseCode
    updatedAt := ← (match time with
      | some value => time? value
      | none => some none)
    rates := ← rates? rates }

/-- The answer with the given members. -/
def ofMembers? (members : List (String × Json)) : Option Response := do
  ofValues? (← one? "result" members) (← one? "base_code" members)
    (← atMostOne? "time_last_update_unix" members) (← one? "conversion_rates" members)

/-- The answer that a JSON value holds. -/
def ofJson? : Json → Option Response
  | .object members => (named? members).bind ofMembers?
  | .array [result, baseCode, time, rates] => ofValues? result baseCode (some time) rates
  | _ => none

/-- The answer that a text holds. -/
def parse? (text : List Char) : Option Response := (Json.parse? text).bind ofJson?

end Response

/-- The rate table in a provider's answer. -/
def RateTable.ofJson (text : List Char) : Except RateError RateTable :=
  match Response.parse? text with
  | none => .error .unreadable
  | some r =>
    if r.result = "success" then .ok { base := r.baseCode, updatedAt := r.updatedAt, rates := r.rates }
    else .error (.unsuccessful r.result)

end Keypad
