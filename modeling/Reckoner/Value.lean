import Reckoner.Number.Display

/-! # Values of operations

An operation may answer with a number of either kind, a truth value, a text or nothing. Only the
two kinds of number take part in arithmetic: `asNumber?` says which, and `toNumber` names the type
of a value that does not.
-/

namespace Reckoner

/-- What an operation returns. -/
inductive Value where
  | number (value : Float)
  | integer (value : Int64)
  | truth (value : Bool)
  | text (value : String)
  | null
  deriving DecidableEq

namespace Value

/-- The name of the value's type. -/
def typeName : Value → String
  | number _ => "Number"
  | integer _ => "Integer"
  | truth _ => "Bool"
  | text _ => "Text"
  | null => "Null"

/-- The value as a float; an integer goes to the nearest one. -/
def asNumber? : Value → Option Float
  | number x => some x
  | integer i => some (Binary64.ofInt i.toInt)
  | _ => none

/-- The value as a float, or why it is none. -/
def toNumber (value : Value) : Except String Float :=
  match value.asNumber? with
  | some x => .ok x
  | none => .error ("expected a number, got " ++ value.typeName)

/-- The text of a value. -/
def display : Value → String
  | number x => Number.display x
  | integer i => toString i.toInt
  | truth true => "true"
  | truth false => "false"
  | text s => s
  | null => "null"

end Value
end Reckoner
