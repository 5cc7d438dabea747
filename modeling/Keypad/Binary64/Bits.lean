import Keypad.Binary64.Basic

/-!
# Keypad.Binary64.Bits — the interchange encoding

A bit pattern is one sign bit, eleven exponent bits and 52 fraction bits.

* `magnitudeBits`, `ofMagnitudeBits`: the lower 63 bits of a finite magnitude, and back.
* `toBits?`, `ofBits`: all 64 bits.  NaN has many patterns, so `toBits?` gives it none.
-/

namespace Keypad.Binary64

/-- Exponent and fraction of a magnitude: the exponent counts the doublings of the spacing. -/
def magnitudeBits (units : Nat) : Nat := (units.log2 - 52) * twoPow 52 + units / ulp units

/-- The magnitude with the given exponent and fraction bits, for an exponent below its greatest value. -/
def ofMagnitudeBits (bits : Nat) : Nat :=
  if bits < twoPow 52 then bits else (twoPow 52 + bits % twoPow 52) * twoPow (bits / twoPow 52 - 1)

/-- The pattern of an infinity without its sign: greatest exponent, zero fraction. -/
def infiniteBits : Nat := 2047 * twoPow 52

/-- The bit pattern of a number other than NaN. -/
def toBits? : Binary64 → Option Nat
  | nan => none
  | infinite s => some (s.toNat * twoPow 63 + infiniteBits)
  | finite s n _ => some (s.toNat * twoPow 63 + magnitudeBits n)

/-- The number with the given 64-bit pattern. -/
def ofBits (bits : Nat) : Binary64 :=
  let negative := bits / twoPow 63 % 2 == 1
  let magnitude := bits % twoPow 63
  if magnitude < infiniteBits then ofUnits negative (ofMagnitudeBits magnitude)
  else if magnitude = infiniteBits then infinite negative
  else nan

end Keypad.Binary64
