import Reckoner.Expression.Reading
import Reckoner.Repertoire
import Reckoner.Number.Literal

/-! # The value of an expression

Operands are evaluated from the left and the first fault wins. Functions are looked up by the whole
name in front of a parenthesis; the arguments of an unknown function are not looked at, and the
call as a whole is no number. Blanks are dropped before a text is read, and what is then longer
than `lengthLimit` is not read at all.
-/

namespace Reckoner

namespace Expression

mutual

/-- The value of an expression, or the first fault on the way. -/
def eval (functions : Repertoire) : Expression → Except Fault Float
  | literal text => Literal.parse text
  | binary operator left right =>
    match eval functions left with
    | .error fault => .error fault
    | .ok x =>
      match eval functions right with
      | .error fault => .error fault
      | .ok y => .ok (operator.apply x y)
  | signed negative operand =>
    match eval functions operand with
    | .error fault => .error fault
    | .ok x => .ok (if negative then -x else x)
  | group inner => eval functions inner
  | call name args =>
    match functions.get? (String.ofList name) with
    | none => .error (.invalidNumber (String.ofList (chars (call name args))))
    | some f =>
      match evalAll functions args with
      | .error fault => .error fault
      | .ok values => f.invoke values

/-- The values of the arguments of a call, or the first fault. -/
def evalAll (functions : Repertoire) : List Expression → Except Fault (List Float)
  | [] => .ok []
  | arg :: args =>
    match eval functions arg with
    | .error fault => .error fault
    | .ok x =>
      match evalAll functions args with
      | .error fault => .error fault
      | .ok xs => .ok (x :: xs)

end

/-- The most characters of a text that is read, blanks not counted. -/
def lengthLimit : Nat := 1024

end Expression

/-- The value of a text under a set of functions. -/
def Repertoire.evaluate (functions : Repertoire) (text : String) : Except Fault Float :=
  let chars := Text.strip text.toList
  if Expression.lengthLimit < chars.length then
    .error (.expressionTooLong chars.length Expression.lengthLimit)
  else (Expression.ofChars chars).eval functions

end Reckoner
