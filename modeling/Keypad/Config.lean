import Keypad.Rate.Pair
import Keypad.Toml.Document

/-!
# Keypad.Config — the user's configuration

* `Config`: the two currencies, where the rate table is kept, and the currencies on offer.
* `Config.ofTable?`, `Config.parse?`: the configuration in a TOML document.  Missing keys have defaults, unknown keys
  are ignored, and a known key with a value of the wrong type is refused.
-/

namespace Keypad

/-- Currencies on offer when none are configured. -/
def defaultCurrencies : List String := ["JPY", "USD", "EUR", "TWD"]

/-- The user's configuration. -/
structure Config where
  /-- The currency that results are entered in. -/
  source : String := "TWD"
  /-- The currency that results are converted to. -/
  target : String := "USD"
  /-- The saved answer of the rate provider. -/
  ratesFile : Option String := none
  currencies : List String := defaultCurrencies
  deriving DecidableEq, Repr

namespace Config

/-! ## Values -/

/-- The text of a string value. -/
def text? : Toml.Value → Option String
  | .string text => some text
  | _ => none

/-- The texts of an array of strings. -/
def texts? : Toml.Value → Option (List String)
  | .array items => items.mapM text?
  | _ => none

/-- The value of a key, or a default if the key is missing. -/
def getD (table : Toml.Table) (key : String) (read : Toml.Value → Option α) (default : α) : Option α :=
  match table.get? key with
  | some value => read value
  | none => some default

/-! ## Documents -/

/-- The configuration in a table. -/
def ofTable? (table : Toml.Table) : Option Config := do
  let base : Config := {}
  return {
    source := ← getD table "from" text? base.source
    target := ← getD table "to" text? base.target
    ratesFile := ← getD table "rates_file" (fun value => (text? value).map some) base.ratesFile
    currencies := ← getD table "currencies" texts? base.currencies }

/-- The configuration in a document. -/
def parse? (document : List Char) : Option Config := (Toml.parse? document).bind ofTable?

/-! ## Use -/

/-- The configured pair of currencies. -/
def pair (c : Config) : Pair := ⟨c.source, c.target⟩

/-- The folder of the program's files in the user's configuration and cache folders. -/
def appFolder : String := "ratecalc"

/-- Where the configuration is kept in the user's configuration folder. -/
def defaultPath (configFolder : String) : String := s!"{configFolder}/{appFolder}/config.toml"

/-- Where the rate table is kept; by default in the user's cache folder. -/
def ratesPath (c : Config) (cacheFolder : String) : String :=
  c.ratesFile.getD s!"{cacheFolder}/{appFolder}/rates.json"

end Config

end Keypad
