import Reckoner.Library.Forms

/-! # Roots, logarithms and powers -/

namespace Reckoner.Library

def squareRoot : Function :=
  unary "sqrt" "Square root (NaN for negative input)" Float.sqrt

def decimalLogarithm : Function :=
  unary "log" "Base-10 logarithm" Float.log10

def naturalLogarithm : Function :=
  unary "ln" "Natural logarithm" Float.log

/-- Third power; the square is taken first. -/
def cube : Function :=
  unary "cube" "Third power" fun x => x * (x * x)

def absolute : Function :=
  unary "abs" "Absolute value" Float.abs

def power : Plugin :=
  binary "pow" "Raise base to a real exponent" "base" "exponent" Float.pow

end Reckoner.Library
