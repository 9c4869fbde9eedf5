import Reckoner.Json.Number
import Reckoner.Json.Token

/-! # JSON documents

A document is a JSON text as a tree, before anybody decides what its parts mean: members are in
their order, a key may repeat, and a leaf may have no value. `Document.read?` accepts exactly the
well-formed texts with nothing but space around them, at any depth, and `readBy?` does so for any
reading of numbers; `toJson?` takes the value and limits the depth.
-/

namespace Reckoner.Json

/-- A JSON text as a tree. -/
inductive Document where
  | leaf (value : Leaf)
  | array (items : List Document)
  | object (members : List (Option String × Document))

namespace Document

/-! ## Reading tokens -/

/-- A container that is still open. What it holds so far is reversed. -/
inductive Frame where
  | items (done : List Document)
  /-- An object behind a key and its colon. -/
  | members (done : List (Option String × Document)) (key : Option String)

/-- What has been read and what may follow. -/
inductive State where
  /-- A value must follow. -/
  | value (stack : List Frame)
  /-- An array has just been opened. -/
  | firstItem (stack : List Frame)
  /-- An object has just been opened. -/
  | firstKey (stack : List Frame)
  /-- A key must follow. -/
  | key (stack : List Frame) (done : List (Option String × Document))
  /-- A colon must follow. -/
  | colon (stack : List Frame) (done : List (Option String × Document)) (key : Option String)
  /-- A value is complete. -/
  | complete (stack : List Frame) (document : Document)

/-- The first token of a value. -/
def enter (stack : List Frame) : Token → Option State
  | .leaf value => some (.complete stack (.leaf value))
  | .openBracket => some (.firstItem stack)
  | .openBrace => some (.firstKey stack)
  | _ => none

/-- One token. -/
def step : State → Token → Option State
  | .value stack, token => enter stack token
  | .firstItem stack, .closeBracket => some (.complete stack (.array []))
  | .firstItem stack, token => enter (.items [] :: stack) token
  | .firstKey stack, .closeBrace => some (.complete stack (.object []))
  | .firstKey stack, .leaf (.text key) => some (.colon stack [] key)
  | .key stack done, .leaf (.text key) => some (.colon stack done key)
  | .colon stack done key, .colon => some (.value (.members done key :: stack))
  | .complete (.items done :: stack) d, .comma => some (.value (.items (d :: done) :: stack))
  | .complete (.items done :: stack) d, .closeBracket =>
    some (.complete stack (.array (d :: done).reverse))
  | .complete (.members done key :: stack) d, .comma => some (.key stack ((key, d) :: done))
  | .complete (.members done key :: stack) d, .closeBrace =>
    some (.complete stack (.object ((key, d) :: done).reverse))
  | _, _ => none

/-- The document of a state in which nothing is open. -/
def State.finish? : State → Option Document
  | .complete [] document => some document
  | _ => none

/-- The document of a list of tokens. -/
def ofTokens? (tokens : List Token) : Option Document :=
  (tokens.foldlM step (.value [])).bind State.finish?

/-- The document of a text whose numbers are read in the given way. -/
def readBy? (numbers : Number.Reader) (text : List Char) : Option Document :=
  (tokens? numbers text).bind ofTokens?

/-- The document of a text. -/
def read? (text : List Char) : Option Document :=
  readBy? Number.ofLexeme? text

/-! ## Values -/

/-- The value of a leaf, if it has one. -/
def leafValue? : Leaf → Option Json
  | .null => some .null
  | .truth value => some (.truth value)
  | .number value => value.map .number
  | .text value => value.map .text

mutual

/-- The value of a document whose containers are nested at most `room` deep. The last one of
several members with the same key counts. -/
def toJson? (room : Nat) : Document → Option Json
  | leaf value => leafValue? value
  | array items => if room = 0 then none else (allToJson? (room - 1) items).map .array
  | object members =>
    if room = 0 then none else (membersToJson? (room - 1) members).map .ofMembers

/-- The values of the items of an array. -/
def allToJson? (room : Nat) : List Document → Option (List Json)
  | [] => some []
  | item :: items =>
    match toJson? room item, allToJson? room items with
    | some value, some values => some (value :: values)
    | _, _ => none

/-- The members of an object with their values. -/
def membersToJson? (room : Nat) : List (Option String × Document) → Option (List (String × Json))
  | [] => some []
  | (key, document) :: members =>
    match key, toJson? room document, membersToJson? room members with
    | some key, some value, some rest => some ((key, value) :: rest)
    | _, _, _ => none

end

mutual

/-- The document of a value. -/
def ofJson : Json → Document
  | .null => leaf .null
  | .truth value => leaf (.truth value)
  | .number value => leaf (.number (some value))
  | .text value => leaf (.text (some value))
  | .array items => array (ofAll items)
  | .object members => object (ofMembers members)

/-- The documents of a list of values. -/
def ofAll : List Json → List Document
  | [] => []
  | item :: items => ofJson item :: ofAll items

/-- The documents of the members of an object. -/
def ofMembers : List (String × Json) → List (Option String × Document)
  | [] => []
  | (key, value) :: members => (some key, ofJson value) :: ofMembers members

end

end Document
end Reckoner.Json
