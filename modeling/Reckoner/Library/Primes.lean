import Reckoner.Library.Forms

/-! # Prime numbers

Primality is trial division up to the square root. `nextPrime` looks for the first prime above a
number; there is always one below its double, so the search is given that many steps. `nthPrime`
takes the next prime so many times.
-/

namespace Reckoner.Library

/-! ## Numbers -/

/-- Whether no number from `d` up to the square root of `n` divides `n`. -/
def noDivisorFrom (n d : Nat) : Bool :=
  if n < d * d then true
  else if n % d = 0 then false
  else noDivisorFrom n (d + 1)
termination_by n + 1 - d
decreasing_by
  have : d ≤ d * d := Nat.le_mul_self d
  omega

/-- Whether a number is prime. -/
def isPrime (n : Nat) : Bool :=
  2 ≤ n && noDivisorFrom n 2

/-- The first prime among `steps` numbers from `n` on, or else the number behind them. -/
def firstPrime : (steps : Nat) → (n : Nat) → Nat
  | 0, n => n
  | steps + 1, n => if isPrime n then n else firstPrime steps (n + 1)

/-- The smallest prime above `n`. -/
def nextPrime (n : Nat) : Nat :=
  firstPrime (n + 2) (n + 1)

/-- The `n`-th prime, counting 2 as the first. -/
def nthPrime (n : Nat) : Nat :=
  Nat.repeat nextPrime n 1

/-! ## Functions -/

/-- The integer part of a number that is above zero, and zero for one that is not. -/
def wholeOf (x : Float) : Nat :=
  match Binary64.view x with
  | .finite false magnitude => Binary64.wholePart magnitude
  | _ => 0

/-- Arguments of the next prime stay below this number, which is itself prime. -/
def nextPrimeLimit : Nat := 2147483647

/-- Whether the next prime of an argument is defined. -/
def belowNextPrimeLimit (x : Float) : Bool :=
  match Binary64.view x with
  | .nan => false
  | .infinite negative => negative
  | .finite negative magnitude => negative || decide (Binary64.wholePart magnitude < nextPrimeLimit)

/-- The next prime after the integer part. -/
def primeAfter : Function where
  name := "NPrime"
  description := "Next prime after the integer part of x"
  body := fun
    | x :: _ =>
      if belowNextPrimeLimit x then .returned (Binary64.ofInt (nextPrime (wholeOf x)))
      else .failed (.invocationFailure "NPrime"
        ("argument must be below " ++ toString nextPrimeLimit))
    | [] => .crashed none

/-- Largest place in the sequence of primes that may be asked for. -/
def nthPrimeLimit : Nat := 100000

/-- Whether a place in the sequence of primes may be asked for. -/
def withinNthPrimeLimit (x : Float) : Bool :=
  match Binary64.view x with
  | .nan => false
  | .infinite negative => negative
  | .finite negative magnitude =>
    negative || decide (Binary64.units magnitude ≤ nthPrimeLimit * Binary64.unitsPerOne)

/-- The prime at a place of the sequence. Places before the first count as the first. -/
def primeAt : Plugin :=
  plugin "nthprime" "The n-th prime number" ["n"] fun
    | x :: _ =>
      if withinNthPrimeLimit x then
        .returned (.integer (Int64.ofNat (nthPrime (max 1 (wholeOf x)))))
      else .failed ("n must be at most " ++ toString nthPrimeLimit)
    | [] => .crashed none

end Reckoner.Library
