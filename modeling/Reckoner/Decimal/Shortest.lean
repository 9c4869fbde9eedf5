import Reckoner.Decimal
import Reckoner.Decimal.Digits

/-! # The shortest decimal that reads back

For a finite magnitude `ofBits` gives the decimal with the fewest digits among those that round to
it, and of these the nearest. On the grid of decimals with a given last place only the two
neighbours of the value can be the answer, so one digit count after another is tried by reading
both neighbours back. Seventeen digits always suffice; the exact expansion closes the search.
-/

namespace Reckoner.Decimal

/-- The place of a value's leading digit: `10 ^ (e - 1) ≤ value < 10 ^ e`. The smallest unit is
above 10⁻³²⁴, so after a shift by 324 places the integer part has at least one digit. -/
def leadingPlace (units : Nat) : Int :=
  (Digits.count (units * tenTo 324 / Binary64.unitsPerOne) : Int) - 324

/-- A value of so many units, divided by `10 ^ place`, as a quotient of natural numbers. -/
def quotientAt (units : Nat) (place : Int) : Nat × Nat :=
  match place with
  | .ofNat k => (units, Binary64.unitsPerOne * tenTo k)
  | .negSucc k => (units * tenTo (k + 1), Binary64.unitsPerOne)

/-- The neighbour of the value on the grid of `10 ^ place` that reads back as `bits`. If both do,
the nearer one is taken, and the upper one of two equally near. -/
def neighbourAt? (bits : Nat) (place : Int) : Option Decimal :=
  let (numerator, denominator) := quotientAt (Binary64.units bits) place
  let low : Decimal := ⟨numerator / denominator, place⟩
  let high : Decimal := ⟨numerator / denominator + 1, place⟩
  let lowIsNearer := decide (2 * (numerator % denominator) < denominator)
  -- The value lies between the two, so only the distance to the lower one has to be known.
  if low.toBits = bits then
    if high.toBits = bits ∧ !lowIsNearer then some high else some low
  else if high.toBits = bits then some high
  else none

/-- Every digit of the value: a unit is `5 ^ 1074` times `10 ^ -1074`. -/
def exactly (bits : Nat) : Decimal :=
  ⟨Binary64.units bits * Nat.pow 5 1074, -1074⟩

/-- The shortest decimal of a finite magnitude other than zero, without trailing zeros. -/
def ofBits (bits : Nat) : Decimal :=
  let place := leadingPlace (Binary64.units bits)
  let shortest := (List.range 17).findSome? fun n : Nat => neighbourAt? bits (place - (n + 1 : Nat))
  (shortest.getD (exactly bits)).normalize

/-! ## Positional notation -/

/-- Splits a run of digits before its last `places` digits, which leaves at least one in front. -/
def splitPlaces (digits : List Char) (places : Nat) : List Char × List Char :=
  let padded := List.replicate (places + 1 - digits.length) '0' ++ digits
  padded.splitAt (padded.length - places)

/-- Positional text: zeros after a coefficient that ends left of the point, otherwise a point with
as many digits behind it as the exponent says. -/
def positional (d : Decimal) : List Char :=
  let digits := Digits.ofNat d.coefficient
  match d.exponent with
  | .ofNat k => digits ++ List.replicate k '0'
  | .negSucc k =>
    let (whole, fraction) := splitPlaces digits (k + 1)
    whole ++ '.' :: fraction

end Reckoner.Decimal
