/-! # JSON values

The values that requests and replies carry. The members of an object are kept in the order of
their keys with one member for each key, which `addMember` maintains.
-/

namespace Reckoner

/-- A number with its kind: integers of 64 bits are kept exactly, all else is a float. -/
inductive Json.Number where
  | integer (value : Int)
  | real (value : Float)
  deriving DecidableEq

/-- A JSON value. -/
inductive Json where
  | null
  | truth (value : Bool)
  | number (value : Json.Number)
  | text (value : String)
  | array (items : List Json)
  | object (members : List (String × Json))

namespace Json

/-- A count as a number. -/
def ofNat (n : Nat) : Json :=
  number (.integer n)

/-- A list of texts. -/
def ofTexts (texts : List String) : Json :=
  array (texts.map text)

/-- Puts a member in its place, unless its key is there already. -/
def addMember (key : String) (value : Json) : List (String × Json) → List (String × Json)
  | [] => [(key, value)]
  | (other, held) :: members =>
    if key = other then (other, held) :: members
    else if key < other then (key, value) :: (other, held) :: members
    else (other, held) :: addMember key value members

/-- An object with the given members; the last one of several with the same key counts. -/
def ofMembers (members : List (String × Json)) : Json :=
  object (members.foldr (fun member held => addMember member.1 member.2 held) [])

end Json
end Reckoner
