import Keypad.Binary64.Bits
import Keypad.Grammar
import Keypad.Main
import Keypad.Proofs.Session.Chain
import Keypad.Session.Reachable
import Keypad.Proofs.App.Lines
import Keypad.Proofs.Session.Recovery
import Keypad.Proofs.Buffer.Retype
import Keypad.Proofs.Session.Retype
import Keypad.Proofs.App.Exchange
import Keypad.Proofs.Dangling
import Keypad.Proofs.Binary64.Spacing
import Keypad.Proofs.Binary64.SixPlaces
import Keypad.Proofs.Binary64.Drift
import Keypad.Proofs.Reevaluation
import Keypad.Proofs.Binary64.Integer
import Keypad.Proofs.Integers
import Keypad.Proofs.Decimal.Shortest
import Keypad.Proofs.Decimal.Canonical
import Keypad.Proofs.Decimal.Cut
import Keypad.Proofs.Buffer.Erase
import Keypad.Proofs.Session.Erase
import Keypad.Proofs.Session.Reading
import Keypad.Proofs.Session.Percent
import Keypad.Proofs.App.Run
import Keypad.Proofs.Masking
import Keypad.Proofs.Binary64.Order
import Keypad.Proofs.Display
import Keypad.Proofs.Rate.Response
import Keypad.Proofs.Stacks
import Keypad.Proofs.Rate.Conversion
