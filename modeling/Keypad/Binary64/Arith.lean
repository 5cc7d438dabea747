import Keypad.Binary64.Basic

/-!
# Keypad.Binary64.Arith — correctly rounded arithmetic

Each operation on finite numbers takes the exact result in units and rounds it once.

* `neg`, `add`, `sub`, `mul`, `div`: the four operations, with the usual rules for zeros, infinities and NaN.
* `roundAway`: the nearest whole number, a half going away from zero.
* `pow`: a power by squaring and multiplying, each product rounded.
-/

namespace Keypad.Binary64

/-! ## The four operations -/

/-- The same number with the other sign. -/
def neg : Binary64 → Binary64
  | nan => nan
  | infinite s => infinite !s
  | finite s n h => finite (!s) n h

/-- A signed count of units. -/
def signed (negative : Bool) (n : Nat) : Int := if negative then -(n : Int) else n

@[simp] theorem signed_false (n : Nat) : signed false n = n := rfl

@[simp] theorem signed_true (n : Nat) : signed true n = -(n : Int) := rfl

/-- Sum.  A zero sum is negative only if both terms are negative. -/
def add : Binary64 → Binary64 → Binary64
  | nan, _ => nan
  | _, nan => nan
  | infinite s, infinite t => if s = t then infinite s else nan
  | infinite s, finite .. => infinite s
  | finite .., infinite t => infinite t
  | finite s m _, finite t n _ =>
    let sum := signed s m + signed t n
    if sum = 0 then signedZero (s && t) else ofUnits (decide (sum < 0)) sum.natAbs

/-- Difference: the sum with the opposite number. -/
def sub (a b : Binary64) : Binary64 := add a (neg b)

/-- Product, with the sign of the product of the signs. -/
def mul : Binary64 → Binary64 → Binary64
  | nan, _ => nan
  | _, nan => nan
  | infinite s, infinite t => infinite (s ^^ t)
  | infinite s, finite t n _ => if n = 0 then nan else infinite (s ^^ t)
  | finite s m _, infinite t => if m = 0 then nan else infinite (s ^^ t)
  | finite s m _, finite t n _ => ofRatio (s ^^ t) (m * n) unitsPerOne

/-- Quotient.  A zero divisor gives an infinity, and NaN for zero by zero. -/
def div : Binary64 → Binary64 → Binary64
  | nan, _ => nan
  | _, nan => nan
  | infinite _, infinite _ => nan
  | infinite s, finite t _ _ => infinite (s ^^ t)
  | finite s _ _, infinite t => signedZero (s ^^ t)
  | finite s m _, finite t n _ =>
    if n = 0 then if m = 0 then nan else infinite (s ^^ t)
    else ofRatio (s ^^ t) (m * unitsPerOne) n

instance : Neg Binary64 := ⟨neg⟩
instance : Add Binary64 := ⟨add⟩
instance : Sub Binary64 := ⟨sub⟩
instance : Mul Binary64 := ⟨mul⟩
instance : Div Binary64 := ⟨div⟩

/-! ## Rounding to whole numbers and powers -/

/-- The whole number nearest to `num / den`, a half going up. -/
def roundHalfUp (num den : Nat) : Nat := (2 * num + den) / (2 * den)

/-- The nearest whole number, a half going away from zero; the sign is kept. -/
def roundAway : Binary64 → Binary64
  | finite s n _ => ofUnits s (roundHalfUp n unitsPerOne * unitsPerOne)
  | x => x

/-- `acc * base ^ n` by squaring and multiplying, each product rounded. -/
def mulPow (acc base : Binary64) (n : Nat) : Binary64 :=
  if n = 0 then acc
  else mulPow (if n % 2 = 1 then acc * base else acc) (base * base) (n / 2)
termination_by n

/-- A power with a signed exponent; a negative one gives one over the positive power. -/
def pow (base : Binary64) : Int → Binary64
  | .ofNat n => mulPow (ofNat 1) base n
  | .negSucc n => ofNat 1 / mulPow (ofNat 1) base (n + 1)

end Keypad.Binary64
