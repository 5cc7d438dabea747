import Keypad.Decimal.Places
import Keypad.Rate.Table

/-!
# Keypad.Rate.Pair — two currencies side by side

* `Pair`: the currency an amount is entered in and the one it is converted to; `swap` exchanges them.
* `Pair.convertedText`: a converted amount with three decimal places.
* `Pair.exchangeInfo`: what one unit is worth, in its shortest text.
-/

namespace Keypad

/-- Decimal places shown for converted amounts. -/
def convertedPlaces : Nat := 3

/-- A converted amount as it is shown. -/
def convertedText (value : Binary64) : String := String.ofList (value.fixedText convertedPlaces)

/-- The currency of the amounts entered, and the currency they are converted to. -/
structure Pair where
  source : String
  target : String
  deriving DecidableEq, Repr

namespace Pair

/-- The two sides exchanged. -/
def swap (p : Pair) : Pair := ⟨p.target, p.source⟩

@[simp] theorem swap_swap (p : Pair) : p.swap.swap = p := rfl

/-- The pair as it is shown. -/
def text (p : Pair) : String := s!"{p.source} → {p.target}"

/-- An amount of the one currency in the other. -/
def convert (p : Pair) (value : Binary64) (table : RateTable) : Except RateError Binary64 :=
  Keypad.convert value p.source p.target table

/-- A converted amount ready for display. -/
def convertedText (p : Pair) (value : Binary64) (table : RateTable) : Except RateError String :=
  (p.convert value table).map Keypad.convertedText

/-- A summary such as `1 USD = 32.25 TWD`. -/
def exchangeInfo (p : Pair) (table : RateTable) : Except RateError String := do
  let rate ← p.convert (.ofNat 1) table
  let text := String.ofList rate.text
  return s!"1 {p.source} = {text} {p.target}"

end Pair

end Keypad
