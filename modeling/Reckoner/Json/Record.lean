import Reckoner.Json.Document

/-! # Records and words in JSON

How a document is taken as one of the program's own types.

* A record is an object with each known member at most once, other members being ignored, or an
  array of the known members in their order.
* A word of a fixed vocabulary is a string, or an object whose one member has the word as its key
  and carries null.
-/

namespace Reckoner.Json.Document

/-- A string with its value. -/
def string? : Document → Option String
  | leaf (.text value) => value
  | _ => none

/-- A natural number of 64 bits. -/
def count? : Document → Option Nat
  | leaf (.number (some (.integer value))) => if 0 ≤ value then some value.toNat else none
  | _ => none

/-- An array, each of its items being a string. -/
def strings? : Document → Option (List String)
  | array items => items.mapM string?
  | _ => none

/-- Whether a document is null. -/
def isNull : Document → Bool
  | leaf .null => true
  | _ => false

/-! ## Records -/

/-- The first member with a key. -/
def member? (members : List (Option String × Document)) (name : String) : Option Document :=
  (members.find? fun member => member.1 = some name).map Prod.snd

/-- Whether all keys have a value and no known one repeats. -/
def isRecord (names : List String) (members : List (Option String × Document)) : Bool :=
  members.all (fun member => member.1.isSome) &&
    names.all fun name => (members.map Prod.fst).count (some name) ≤ 1

/-- The members of a record in the order of `names`, each with its document if it is there. An array
has to give the first `least` of them. -/
def fields? (names : List String) (least : Nat) : Document → Option (List (Option Document))
  | object members => if isRecord names members then some (names.map (member? members)) else none
  -- In an array the members stand by their places, and only the last ones may be missing.
  | array items =>
    if least ≤ items.length ∧ items.length ≤ names.length then
      some (items.map some ++ List.replicate (names.length - items.length) none)
    else none
  | leaf _ => none

/-! ## Words -/

/-- A word of a vocabulary, by the texts of its words. -/
def word? {α : Type} (vocabulary : List α) (text : α → String) : Document → Option α
  | leaf (.text (some name)) => vocabulary.find? fun word => text word = name
  | object [(some name, payload)] =>
    if payload.isNull then vocabulary.find? fun word => text word = name else none
  | _ => none

end Reckoner.Json.Document
