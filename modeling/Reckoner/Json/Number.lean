import Reckoner.Decimal.Scaled
import Reckoner.Decimal.Shortest
import Reckoner.Json
import Reckoner.Number.Literal

/-! # JSON numbers

A number with neither point nor exponent is an integer if it fits 64 bits, as a natural or as a
negative number. All others are floats: their leading digits are gathered into a significand of 64
bits, the digits that do not fit only count for the exponent, and the two are put together by
scaling, see `Decimal.scaledBits`. A float is therefore not always the one nearest to its text. One
that is too large is well formed all the same, so `ofLexeme?` keeps form and value apart.

A float is written with the fewest digits that are nearest to it and always shows that it is a
float: by a point, or by an exponent where its point would stand far from its digits.
-/

namespace Reckoner.Json.Number

/-! ## Reading -/

/-- Significands from here on do not fit 64 bits. -/
def significandBound : Nat := 1 <<< 64

/-- The largest magnitude of a negative integer. -/
def negativeBound : Nat := 1 <<< 63

/-- Appends digits to a significand up to the first one that does not fit any more; the digits from
there on are left over. -/
def gather (significand : Nat) : List Char → Nat × List Char
  | [] => (significand, [])
  | c :: digits =>
    let next := 10 * significand + (c.toNat - '0'.toNat)
    if next < significandBound then gather next digits else (significand, c :: digits)

/-- Digits whose number fits are all gathered. -/
theorem gather_eq_foldl (significand : Nat) (digits : List Char)
    (h : digits.foldl (fun n c => 10 * n + (c.toNat - '0'.toNat)) significand < significandBound) :
    gather significand digits =
      (digits.foldl (fun n c => 10 * n + (c.toNat - '0'.toNat)) significand, []) := by
  induction digits generalizing significand with
  | nil => rfl
  | cons c digits ih =>
    have grows : ∀ (digits : List Char) (n : Nat),
        n ≤ digits.foldl (fun n c => 10 * n + (c.toNat - '0'.toNat)) n := by
      intro digits
      induction digits with
      | nil => exact fun n => Nat.le_refl n
      | cons c digits ih => exact fun n => Nat.le_trans (by show n ≤ 10 * n + _; omega) (ih _)
    rw [List.foldl_cons] at h ⊢
    rw [gather, if_pos (Nat.lt_of_le_of_lt (grows digits _) h), ih _ h]

theorem gather_eq_toNat {digits : List Char} (h : Digits.toNat digits < significandBound) :
    gather 0 digits = (Digits.toNat digits, []) :=
  gather_eq_foldl 0 digits h

/-- The decimal of whole digits, places behind the point and an exponent. A whole digit that is
left over still moves the point, a place that is left over is as good as missing. -/
def decimal (whole places : List Char) (exponent : Int) : Decimal :=
  let (start, excess) := gather 0 whole
  let (significand, dropped) := gather start places
  ⟨significand, exponent + excess.length - (places.length - dropped.length : Nat)⟩

/-- A float, unless it is infinite. -/
def ofMagnitude? (negative : Bool) (bits : Nat) : Option Number :=
  if bits < Binary64.infinityBits then
    let magnitude := Binary64.ofMagnitude bits
    some (.real (if negative then -magnitude else magnitude))
  else none

/-- The value of a decimal that is no integer. -/
def ofDecimal? (negative : Bool) (d : Decimal) : Option Number :=
  ofMagnitude? negative d.scaledBits

/-- The value of a run of digits. Negative zero is no integer. -/
def ofWhole? (negative : Bool) (digits : List Char) : Option Number :=
  match gather 0 digits with
  | (value, []) =>
    if !negative then some (.integer value)
    else if 0 < value ∧ value ≤ negativeBound then some (.integer (-value))
    else ofDecimal? negative ⟨value, 0⟩
  | _ => ofDecimal? negative (decimal digits [] 0)

/-- Digits that start with a zero only if that is all. -/
def isWhole : List Char → Bool
  | [] => false
  | [_] => true
  | first :: _ => first ≠ '0'

/-- Whether what follows the integer digits is a fraction that JSON allows, or no fraction. -/
def allowsTail : List Char → Bool
  | '.' :: c :: _ => c.isDigit
  | '.' :: [] => false
  | _ => true

/-- A number without its sign: `none` if it is malformed, `some none` if it is too large. -/
def ofUnsigned? (negative : Bool) (text : List Char) : Option (Option Number) :=
  let whole := text.takeWhile Char.isDigit
  let tail := text.dropWhile Char.isDigit
  if isWhole whole && allowsTail tail then
    if tail = [] then some (ofWhole? negative whole)
    else
      let (places, mark) := Literal.fraction tail
      (Literal.exponent? mark).map fun e => ofDecimal? negative (decimal whole places e)
  else none

/-- The number that a lexeme writes: `none` if it is none, `some none` if it is too large. -/
def ofLexeme? : List Char → Option (Option Number)
  | '-' :: digits => ofUnsigned? true digits
  | digits => ofUnsigned? false digits

/-! ## Writing -/

/-- The text of an exponent. -/
def exponentChars (e : Int) : List Char :=
  'e' :: (if e < 0 then ['-'] else []) ++ Digits.ofNat e.natAbs

/-- A decimal with a point or an exponent. Positional notation serves while the point stands at
most sixteen digits behind the first one and at most four zeros in front of it. -/
def decimalChars (d : Decimal) : List Char :=
  let digits := Digits.ofNat d.coefficient
  let place := digits.length + d.exponent
  -- No digit stands behind the point, so a zero has to show that this is a float.
  if 0 ≤ d.exponent ∧ place ≤ 16 then d.positional ++ ['.', '0']
  else if -5 < place ∧ place ≤ 16 then d.positional
  else
    match digits with
    | first :: more@(_ :: _) => first :: '.' :: more ++ exponentChars (place - 1)
    | _ => digits ++ exponentChars (place - 1)

/-- The text of a float. What is not finite has no JSON number and is written as null. -/
def realChars (x : Float) : List Char :=
  match Binary64.view x with
  | .finite negative magnitude =>
    (if negative then ['-'] else []) ++
      (if magnitude = 0 then ['0', '.', '0'] else decimalChars (Decimal.ofBits magnitude))
  | _ => "null".toList

/-- The text of a number. -/
def chars : Number → List Char
  | integer value => (if value < 0 then ['-'] else []) ++ Digits.ofNat value.natAbs
  | real value => realChars value

end Reckoner.Json.Number
