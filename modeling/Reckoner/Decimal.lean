import Reckoner.Binary64

/-! # Decimal numbers

A decimal is a natural coefficient times a power of ten. `toBits` and `toFloat` round it correctly:
whatever the size of the exponent, the answer is the binary64 nearest to the exact value, a tie
going to the even one.
-/

namespace Reckoner

/-- The number `coefficient * 10 ^ exponent`. -/
structure Decimal where
  coefficient : Nat
  exponent : Int
  deriving DecidableEq, Repr

namespace Decimal

/-- A power of ten. -/
def tenTo (k : Nat) : Nat := Nat.pow 10 k

/-- The magnitude's bit pattern. Two shortcuts keep the powers small: no coefficient but zero
survives a factor of 10³¹⁰, and `10 ^ k` is at least `2 ^ (3 * k)`, so what is below half a unit
shows in the bit length of the coefficient. -/
def toBits (d : Decimal) : Nat :=
  match d.exponent with
  | .ofNat k =>
    if d.coefficient = 0 then 0
    else if 309 < k then Binary64.infinityBits
    else Binary64.nearest (d.coefficient * tenTo k) 1
  | .negSucc k =>
    if d.coefficient.log2 + 1076 ≤ 3 * (k + 1) then 0
    else Binary64.nearest d.coefficient (tenTo (k + 1))

/-- The binary64 nearest to the decimal. -/
def toFloat (d : Decimal) : Float :=
  Binary64.ofMagnitude d.toBits

/-- The same number without trailing zeros in the coefficient. -/
def normalize (d : Decimal) : Decimal :=
  if d.coefficient = 0 ∨ d.coefficient % 10 ≠ 0 then d
  else normalize ⟨d.coefficient / 10, d.exponent + 1⟩
termination_by d.coefficient
decreasing_by omega

end Decimal
end Reckoner
