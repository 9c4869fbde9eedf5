import Reckoner.Decimal

/-! # Reading a decimal by scaling

`Decimal.toBits` rounds once. Here the coefficient is rounded to a float and that float is scaled
by a rounded power of ten, which rounds again: the answer is close to the nearest float but need
not be it. A coefficient below 2⁶⁴ is meant.

* `scaledBits` — the magnitude's bit pattern that comes out.
-/

namespace Reckoner.Decimal

/-- The largest power of ten that is a float. -/
def largestPower : Nat := 308

/-- The bit pattern nearest to a power of ten. -/
def powerBits (k : Nat) : Nat :=
  (Decimal.mk 1 k).toBits

/-- The bit pattern of a magnitude divided by a power of ten. What the largest power does not
cover is divided by a second one, and past two of them nothing is left of 64 bits. -/
def shrink (bits : Nat) (k : Nat) : Nat :=
  if k ≤ largestPower then Binary64.quotient bits (powerBits k)
  else if k ≤ 2 * largestPower then
    let rest := Binary64.quotient bits (powerBits largestPower)
    Binary64.quotient rest (powerBits (k - largestPower))
  else 0

/-- The bit pattern of a decimal that is read by scaling, infinity if it is too large. -/
def scaledBits (d : Decimal) : Nat :=
  let significand := Binary64.nearest d.coefficient 1
  match d.exponent with
  | .ofNat k =>
    if d.coefficient = 0 then 0
    else if largestPower < k then Binary64.infinityBits
    else Binary64.product significand (powerBits k)
  | .negSucc k => shrink significand (k + 1)

end Reckoner.Decimal
