import Reckoner.Library.Statistics
import Reckoner.Library.Arithmetic
import Reckoner.Library.Primes
import Reckoner.Library.Trigonometry
import Reckoner.Registry

/-! # The standard library

Fifteen functions in a fixed order, functions before plugins. A later candidate of the same name
loses against them.
-/

namespace Reckoner.Library

/-- The candidates of the standard library in the order of their installation. -/
def candidates : List Candidate :=
  [direct "SinFunction" sine,
   direct "CosFunction" cosine,
   direct "TanFunction" tangent,
   direct "SqrtFunction" squareRoot,
   direct "LogFunction" decimalLogarithm,
   direct "LnFunction" naturalLogarithm,
   direct "CubeFunction" cube,
   direct "AbsFunction" absolute,
   direct "SumFunction" sum,
   direct "PrimeNumbers" primeAfter,
   annotated "MaxFunction" maximum,
   annotated "MinFunction" minimum,
   annotated "AvgFunction" mean,
   annotated "PowFunction" power,
   annotated "NthPrime" primeAt]

/-- The catalogue that holds the standard library alone. -/
def catalogue : Catalogue := ⟨candidates⟩

/-- A registry over the standard library that has discovered it. -/
def registry (exclusions : Exclusions) : Registry :=
  (Registry.create catalogue exclusions).discover.1

end Reckoner.Library
