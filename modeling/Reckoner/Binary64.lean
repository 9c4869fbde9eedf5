/-! # Binary64 numbers as exact integers

Every finite binary64 magnitude is a whole multiple of one unit, 2⁻¹⁰⁷⁴, and its bit pattern below
the sign is itself a natural number that grows with it. Decoding and rounding are therefore plain
arithmetic on natural numbers.

* `units` — the value of a finite bit pattern, in units.
* `nearest` — the bit pattern closest to a quotient, a tie going to the even pattern.
* `product`, `quotient` — the rounded product and quotient of two magnitudes.
* `view` — a float as not-a-number, an infinity, or a sign with a bit pattern.
-/

namespace Reckoner.Binary64

/-- The bit pattern of infinity: the first one past all finite magnitudes. -/
def infinityBits : Nat := 0x7FF0000000000000

/-- The leading bit of a normal significand, 2⁵², which its pattern does not store. -/
def hiddenBit : Nat := 1 <<< 52

/-- The pattern of the sign, 2⁶³. -/
def signBit : Nat := 1 <<< 63

/-- How many units make one. -/
def unitsPerOne : Nat := 1 <<< 1074

/-- The value of a finite bit pattern in units of 2⁻¹⁰⁷⁴. The first 2⁵² patterns have no hidden bit;
each further block of as many patterns doubles the spacing. -/
def units (bits : Nat) : Nat :=
  if bits < hiddenBit then bits
  else (hiddenBit + bits % hiddenBit) <<< (bits / hiddenBit - 1)

/-! ## Rounding -/

/-- The integer nearest to a quotient; a half goes to the even neighbour. -/
def roundQuotient (numerator denominator : Nat) : Nat :=
  let quotient := numerator / denominator
  let twice := 2 * (numerator % denominator)
  if twice < denominator then quotient
  else if denominator < twice then quotient + 1
  -- Exactly half: the parity of the quotient decides.
  else quotient + quotient % 2

/-- The bit pattern nearest to a quotient. The significand is rounded where its 53rd bit falls; a
carry out of it lands in the next block by itself, and all that is too large meets infinity. -/
def nearest (numerator denominator : Nat) : Nat :=
  let scaled := numerator * unitsPerOne
  -- Zero as long as the quotient has at most 53 bits, and so for all subnormal numbers.
  let shift := (scaled / denominator).log2 - 52
  min (shift * hiddenBit + roundQuotient scaled (denominator <<< shift)) infinityBits

/-- The bit pattern nearest to the product of two finite magnitudes. -/
def product (a b : Nat) : Nat :=
  nearest (units a * units b) (unitsPerOne * unitsPerOne)

/-- The bit pattern nearest to the quotient of two finite magnitudes. -/
def quotient (a b : Nat) : Nat :=
  nearest (units a) (units b)

/-- The float of a magnitude's bit pattern. -/
def ofMagnitude (bits : Nat) : Float :=
  Float.ofBits (UInt64.ofNat bits)

/-- The float nearest to an integer. -/
def ofInt (value : Int) : Float :=
  let magnitude := ofMagnitude (nearest value.natAbs 1)
  if value < 0 then -magnitude else magnitude

/-! ## Taking a float apart -/

/-- What a bit pattern stands for. A finite magnitude keeps its pattern, see `units`. -/
inductive View where
  | nan
  | infinite (negative : Bool)
  | finite (negative : Bool) (magnitude : Nat)
  deriving DecidableEq, Repr

/-- The view of a pattern of 64 bits, the sign on top. -/
def View.ofBits (bits : Nat) : View :=
  let negative := decide (signBit ≤ bits)
  let magnitude := bits % signBit
  if magnitude < infinityBits then .finite negative magnitude
  else if magnitude = infinityBits then .infinite negative
  else .nan

/-- The view of a float. -/
def view (x : Float) : View :=
  View.ofBits x.toBits.toNat

/-- The integer part of a finite magnitude. -/
def wholePart (magnitude : Nat) : Nat :=
  units magnitude / unitsPerOne

end Reckoner.Binary64
