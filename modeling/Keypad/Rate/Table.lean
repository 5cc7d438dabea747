import Keypad.Binary64.Arith
import Keypad.Text.Quoted

/-!
# Keypad.Rate.Table — exchange rates against a base currency

* `RateTable`: the rates in the order in which they are listed; of a code listed twice the last rate counts.
* `RateTable.rate`: the usable rate of a code; a missing, zero, negative or infinite rate is unavailable.
* `convert`: an amount taken from one currency to another through the base.
-/

namespace Keypad

/-- Why a rate table, or a rate in it, cannot be used. -/
inductive RateError
  /-- The code is missing, or its rate is unusable. -/
  | unavailable (code : String)
  /-- The text is no rate table. -/
  | unreadable
  /-- The provider reported something other than success. -/
  | unsuccessful (result : String)
  deriving DecidableEq, Repr

/-- The text of the error. -/
def RateError.message : RateError → String
  | unavailable code => s!"no rate available for {code}"
  | unreadable => "invalid rate table"
  | unsuccessful result => s!"rate provider returned {Text.quotedString result}"

/-- Rates against a base currency. -/
structure RateTable where
  base : String
  /-- When the provider updated the rates, in seconds since 1970, if known. -/
  updatedAt : Option Int := none
  rates : List (String × Binary64)
  deriving DecidableEq

/-- A rate that converts in both directions: positive and finite. -/
def isUsableRate (rate : Binary64) : Bool := rate.isFinite && decide (Binary64.zero < rate)

namespace RateTable

/-- The last rate listed for a code. -/
def listed? (table : RateTable) (code : String) : Option Binary64 := table.rates.reverse.lookup code

/-- The usable rate of a code. -/
def rate (table : RateTable) (code : String) : Except RateError Binary64 :=
  match table.listed? code with
  | some r => if isUsableRate r then .ok r else .error (.unavailable code)
  | none => .error (.unavailable code)

end RateTable

/-- Converts an amount through the base of the table. -/
def convert (value : Binary64) (source target : String) (table : RateTable) : Except RateError Binary64 := do
  let sourceRate ← table.rate source
  let targetRate ← table.rate target
  return value / sourceRate * targetRate

end Keypad
