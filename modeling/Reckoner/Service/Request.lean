import Reckoner.Json.Schema

/-! # Requests

A request is one line: a record with the protocol's version, an identifier, a method and its
parameters. A request without an identifier, or with null for one, is a notification.
-/

namespace Reckoner.Service

open Json (Document)

/-- What a client may ask for. -/
inductive Method where
  | handshake
  | acknowledge
  | evaluate
  | listFunctions
  | reloadFunctions
  | unknown (name : String)
  deriving DecidableEq

/-- The method of a name. -/
def Method.ofName (name : String) : Method :=
  if name = "initialize" then handshake
  else if name = "initialized" ∨ name = "ping" then acknowledge
  else if name = "evaluate" then evaluate
  else if name = "functions/list" then listFunctions
  else if name = "functions/reload" then reloadFunctions
  else unknown name

/-- A decoded request. -/
structure Request where
  id : Option Json
  method : Method
  params : Option Json

/-- A request gets no reply if nothing identifies it. -/
def Request.isNotification (request : Request) : Bool :=
  request.id.isNone

/-- How deep containers may be nested in a line, the record itself counted. -/
def depthLimit : Nat := 127

/-- A member that may be missing or null: the outer `none` says that its value is malformed. -/
def optional? (member : Option Document) : Option (Option Json) :=
  match member with
  | none => some none
  | some document =>
    if document.isNull then some none else (document.toJson? (depthLimit - 1)).map some

/-- The request of a document. An array may leave out the parameters alone. -/
def Request.ofDocument? (document : Document) : Option Request :=
  match document.fields? ["jsonrpc", "id", "method", "params"] 3 with
  | some [some version, id, some method, params] =>
    match version.string?, optional? id, method.string?, optional? params with
    | some _, some id, some name, some params => some ⟨id, .ofName name, params⟩
    | _, _, _, _ => none
  | _ => none

/-- The request of a line. -/
def Request.read? (line : List Char) : Option Request :=
  (Document.read? line).bind Request.ofDocument?

/-! ## Parameters of an evaluation -/

/-- A text to evaluate and the mode of its readout. -/
structure Query where
  expression : String
  mode : Mode
  deriving DecidableEq

/-- The query of a request's parameters. Without a mode it is for live display. -/
def Query.ofJson? (params : Json) : Option Query :=
  match (Document.ofJson params).fields? ["expression", "mode"] 1 with
  | some [some expression, none] => expression.string?.map fun text => ⟨text, .live⟩
  | some [some expression, some mode] =>
    match expression.string?, Mode.ofDocument? mode with
    | some text, some mode => some ⟨text, mode⟩
    | _, _ => none
  | _ => none

end Reckoner.Service
