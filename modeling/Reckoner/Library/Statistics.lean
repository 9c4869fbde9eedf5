import Reckoner.Library.Forms

/-! # Functions of several numbers -/

namespace Reckoner.Library

/-- The larger of two numbers; a value that is not a number yields to the other. -/
def larger (x y : Float) : Float :=
  if x.isNaN then y else if y.isNaN then x else if x < y then y else x

/-- The smaller of two numbers; a value that is not a number yields to the other. -/
def smaller (x y : Float) : Float :=
  if x.isNaN then y else if y.isNaN then x else if y < x then y else x

/-- The sum from the left. It starts from -0, which alone leaves every first term as it is. -/
def total (args : List Float) : Float :=
  args.foldl (· + ·) (-0.0)

def maximum : Plugin :=
  binary "max" "Larger of two values" "a" "b" larger

def minimum : Plugin :=
  binary "min" "Smaller of two values" "a" "b" smaller

def mean : Plugin :=
  binary "avg" "Arithmetic mean of two values" "a" "b" fun x y => (x + y) / 2.0

def sum : Function where
  name := "sum"
  description := "Sum of one or more values"
  arity := .atLeast 1
  body := fun args => .returned (total args)

end Reckoner.Library
