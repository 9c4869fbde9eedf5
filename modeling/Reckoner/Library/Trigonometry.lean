import Reckoner.Library.Forms

/-! # Trigonometry

Angles are in degrees; one multiplication turns them into radians.
-/

namespace Reckoner.Library

/-- The binary64 nearest to π / 180. -/
def radiansPerDegree : Float := Float.ofBits 0x3F91DF46A2529D39

def radians (degrees : Float) : Float :=
  degrees * radiansPerDegree

def sine : Function :=
  unary "sin" "Sine of an angle in degrees" fun x => (radians x).sin

def cosine : Function :=
  unary "cos" "Cosine of an angle in degrees" fun x => (radians x).cos

def tangent : Function :=
  unary "tan" "Tangent of an angle in degrees" fun x => (radians x).tan

end Reckoner.Library
