import Reckoner.Decimal.Shortest
import Reckoner.Number.Literal

/-! # Number text

`display` writes a result as the shortest decimal that reads back, in positional notation and never
with an exponent. Both zeros are written `0`; what is not finite is written as its literal.
-/

namespace Reckoner.Number

/-- A minus sign, or nothing. -/
def signText (negative : Bool) : List Char :=
  if negative then ['-'] else []

/-- The text of a finite magnitude. -/
def magnitudeText (bits : Nat) : List Char :=
  if bits = 0 then ['0'] else (Decimal.ofBits bits).positional

/-- The characters of a number's text. -/
def chars (x : Float) : List Char :=
  match Binary64.view x with
  | .nan => Literal.nanWord
  | .infinite negative => signText negative ++ Literal.infinityWord
  | .finite negative magnitude => signText (negative && magnitude != 0) ++ magnitudeText magnitude

/-- The text of a number. -/
def display (x : Float) : String :=
  String.ofList (chars x)

end Reckoner.Number
