import Reckoner.Decimal
import Reckoner.Decimal.Digits
import Reckoner.Fault

/-! # Number literals

A literal is an optional sign and then `Infinity`, `NaN`, or digits with an optional point and an
optional exponent, at least one digit standing before the exponent. `read?` gives its value and
`parse` a fault in its place: a decimal is rounded correctly, and a sign negates the value of what
follows it.
-/

namespace Reckoner.Literal

def infinityWord : List Char := "Infinity".toList

def nanWord : List Char := "NaN".toList

def infinity : Float := Binary64.ofMagnitude Binary64.infinityBits

def nan : Float := 0.0 / 0.0

/-! ## Decimal notation -/

/-- One digit or more, and nothing else. -/
def natural? (text : List Char) : Option Nat :=
  if text ≠ [] ∧ text.all Char.isDigit then some (Digits.toNat text) else none

/-- Digits after an optional sign. -/
def integer? : List Char → Option Int
  | '+' :: digits => (natural? digits).map Int.ofNat
  | '-' :: digits => (natural? digits).map fun n => -Int.ofNat n
  | digits => (natural? digits).map Int.ofNat

/-- What follows the digits: nothing, or a mark and an exponent. -/
def exponent? : List Char → Option Int
  | [] => some 0
  | mark :: digits => if mark = 'e' ∨ mark = 'E' then integer? digits else none

/-- The digits behind a point, and the rest. Without a point there are none. -/
def fraction : List Char → List Char × List Char
  | '.' :: rest => (rest.takeWhile Char.isDigit, rest.dropWhile Char.isDigit)
  | rest => ([], rest)

/-- An unsigned decimal in any of its notations: `5`, `5.`, `.5`, `5.0e-1`. -/
def decimal? (text : List Char) : Option Decimal :=
  let whole := text.takeWhile Char.isDigit
  let (places, tail) := fraction (text.dropWhile Char.isDigit)
  if whole = [] ∧ places = [] then none
  else (exponent? tail).map fun e => ⟨Digits.toNat (whole ++ places), e - places.length⟩

/-! ## Literals -/

/-- The value of a literal without its sign. -/
def unsigned? (text : List Char) : Option Float :=
  if text = infinityWord then some infinity
  else if text = nanWord then some nan
  else (decimal? text).map Decimal.toFloat

/-- The value of a literal, `none` for any other text. -/
def read? : List Char → Option Float
  | '-' :: text => (unsigned? text).map fun x => -x
  | '+' :: text => unsigned? text
  | text => unsigned? text

/-- The value of a literal, or the fault that names the text. -/
def parse (text : List Char) : Except Fault Float :=
  match read? text with
  | some x => .ok x
  | none => .error (.invalidNumber (String.ofList text))

end Reckoner.Literal
