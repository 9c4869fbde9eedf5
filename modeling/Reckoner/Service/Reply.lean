import Reckoner.Json.Schema

/-! # Replies

A reply carries the identifier of its request and either a result or a rejection.
-/

namespace Reckoner.Service

/-- Why a request has no result. -/
inductive Rejection where
  /-- The line is no request, for the reason that the reader of the line gives. -/
  | malformed (reason : String)
  | unknownMethod (name : String)
  | missingParams
  /-- The parameters are no query, for the reason that their reader gives. -/
  | invalidParams (reason : String)
  /-- The expression has no value; `display` is what its readout shows. -/
  | evaluation (fault : Fault) (display : String)
  deriving DecidableEq

namespace Rejection

/-- The numeric code of a rejection. -/
def code : Rejection → Int
  | malformed _ => -32700
  | unknownMethod _ => -32601
  | missingParams => -32602
  | invalidParams _ => -32602
  | evaluation _ _ => -32000

/-- The sentence for a rejection. -/
def message : Rejection → String
  | malformed reason => "Parse error: " ++ reason
  | unknownMethod name => "Method not found: " ++ name
  | missingParams => "Missing params"
  | invalidParams reason => "Invalid params: " ++ reason
  | evaluation fault _ => fault.message

/-- Details for a front end. -/
def data? : Rejection → Option Json
  | evaluation fault display => some (.object [("display", .text display),
      ("incomplete", .truth fault.isIncomplete), ("kind", fault.kind.toJson)])
  | _ => none

/-- The JSON value of a rejection. -/
def toJson (rejection : Rejection) : Json :=
  .object ([("code", .number (.integer rejection.code)), ("message", .text rejection.message)] ++
    match rejection.data? with
    | some data => [("data", data)]
    | none => [])

end Rejection

/-- The answer to one line. -/
structure Reply where
  id : Option Json
  outcome : Except Rejection Json

/-- The JSON value of a reply. -/
def Reply.toJson (reply : Reply) : Json :=
  .object ([("jsonrpc", .text "2.0")] ++
    (match reply.id with
      | some id => [("id", id)]
      | none => []) ++
    match reply.outcome with
    | .ok result => [("result", result)]
    | .error rejection => [("error", rejection.toJson)])

end Reckoner.Service
