import Keypad.Binary64.Arith

/-!
# Keypad.Rounding — rounding results to decimal places

`roundTo value places` scales by a power of ten, rounds to a whole number (a half away from zero) and scales back, each
step a correctly rounded operation.  A value whose scaling overflows has no fractional digits and is returned as it is;
a zero result is the positive zero.
-/

namespace Keypad

/-- Decimal places kept on every evaluation result. -/
def resultPlaces : Int := 6

/-- Rounds a number to decimal places; a negative count rounds to tens, hundreds and so on. -/
def roundTo (value : Binary64) (places : Int) : Binary64 :=
  let factor := (Binary64.ofNat 10).pow places
  let scaled := value * factor
  if scaled.isFinite then
    let rounded := scaled.roundAway / factor
    if rounded.isZero then Binary64.zero else rounded
  else value

end Keypad
