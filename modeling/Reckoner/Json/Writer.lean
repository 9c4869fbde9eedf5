import Reckoner.Json.Number
import Reckoner.Json.Quoted
import Reckoner.Text.Fields

/-! # Writing JSON

A value on one line, without space between its tokens.
-/

namespace Reckoner.Json

mutual

/-- The text of a value. -/
def chars : Json → List Char
  | null => "null".toList
  | truth true => "true".toList
  | truth false => "false".toList
  | number value => value.chars
  | text value => Quoted.quote value
  | array items => '[' :: (Text.joinCommas (charsOfAll items) ++ [']'])
  | object members => '\x7b' :: (Text.joinCommas (charsOfMembers members) ++ ['\x7d'])

/-- The texts of the items of an array. -/
def charsOfAll : List Json → List (List Char)
  | [] => []
  | item :: items => chars item :: charsOfAll items

/-- The texts of the members of an object. -/
def charsOfMembers : List (String × Json) → List (List Char)
  | [] => []
  | (key, value) :: members => (Quoted.quote key ++ ':' :: chars value) :: charsOfMembers members

end

/-- The text of a value as a string. -/
def render (value : Json) : String :=
  String.ofList value.chars

end Reckoner.Json
