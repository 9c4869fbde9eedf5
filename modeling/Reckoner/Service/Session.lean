import Reckoner.Library
import Reckoner.Service.Reply
import Reckoner.Service.Request

/-! # Sessions

A session answers request lines one after the other. Its only state is the registry, and only a
reload changes it. Blank lines are skipped, notifications are carried out without a reply, and a
line that is no request is answered without an identifier.

What a reader of JSON says about a text that it refuses is left open: it is passed on in the reply,
and `Wording` stands for it.

* `answerLine` — one line and the registry after it.
* `answerAll` — line by line, so that every reply stays beside its line.
* `replies` — the replies to a whole input.
* `serve` — the same as text, one line each.
-/

namespace Reckoner.Service

/-- What the readers say about what they refuse. -/
structure Wording where
  /-- About a line that is no request. -/
  line : String → String
  /-- About parameters that are no query. -/
  params : Json → String

/-- The same words for whatever is refused. -/
def Wording.plain : Wording where
  line _ := "the line is not a request"
  params _ := "an expression and a mode are expected"

/-- Who answers, and what it can do. -/
def introduction : Json :=
  .object
    [("capabilities", .object
      [("evaluate", .object [("modes", .ofTexts ["live", "final"])]),
       ("functions", .object [("reload", .truth true)])]),
     ("serverInfo", .object [("name", .text "modulo"), ("version", .text "0.1.0")])]

/-- The result of a readout. A value that is not finite is null, its text says which it is. -/
def ofReadout (readout : Readout) : Except Rejection Json :=
  match readout.fault with
  | some fault => .error (.evaluation fault readout.text)
  | none => .ok (.object [("text", .text readout.text),
      ("value", (readout.value.map Json.ofFloat).getD .null)])

/-- Evaluates what the parameters ask for. -/
def evaluate (wording : Wording) (functions : Repertoire) (params : Option Json) :
    Except Rejection Json :=
  match params with
  | none => .error .missingParams
  | some params =>
    match Query.ofJson? params with
    | none => .error (.invalidParams (wording.params params))
    | some query => ofReadout (functions.readout query.expression query.mode)

/-- The published functions. -/
def functionList (registry : Registry) : Json :=
  .object [("functions", .array (registry.functions.functions.map Function.toJson)),
    ("generation", .ofNat registry.generation)]

/-- The report of a reload. -/
def reloadResult (generation : Nat) (report : Discovery.Report) : Json :=
  .ofMembers (("generation", .ofNat generation) :: report.members)

/-- Carries out a method. -/
def perform (wording : Wording) (registry : Registry) (method : Method) (params : Option Json) :
    Registry × Except Rejection Json :=
  match method with
  | .handshake => (registry, .ok introduction)
  | .acknowledge => (registry, .ok (.object []))
  | .evaluate => (registry, evaluate wording registry.functions params)
  | .listFunctions => (registry, .ok (functionList registry))
  | .reloadFunctions =>
    let (next, report) := registry.reload
    (next, .ok (reloadResult next.generation report))
  | .unknown name => (registry, .error (.unknownMethod name))

/-- Answers one line that is not blank. -/
def answer (wording : Wording) (registry : Registry) (line : List Char) :
    Registry × Option Reply :=
  match Request.read? line with
  | none => (registry, some ⟨none, .error (.malformed (wording.line (String.ofList line)))⟩)
  | some request =>
    -- A notification is carried out like any other request; only its reply is dropped.
    let (next, outcome) := perform wording registry request.method request.params
    (next, if request.isNotification then none else some ⟨request.id, outcome⟩)

/-- Answers one line of input, blanks around it not counted. -/
def answerLine (wording : Wording) (registry : Registry) (line : List Char) :
    Registry × Option Reply :=
  let request := Text.trim line
  if request = [] then (registry, none) else answer wording registry request

/-- The reply to each line of a list, or its lack of one. -/
def answerAll (wording : Wording) (registry : Registry) : List (List Char) → List (Option Reply)
  | [] => []
  | line :: lines =>
    let (next, reply) := answerLine wording registry line
    reply :: answerAll wording next lines

/-- The registry of a session that begins. -/
def start (disabled : Option String) : Registry :=
  Library.registry (Exclusions.ofSetting disabled)

/-- The replies to a whole input. -/
def replies (disabled : Option String) (input : String) (wording : Wording := .plain) :
    List Reply :=
  (answerAll wording (start disabled) (Text.splitOn '\n' input.toList)).filterMap id

/-- The reply lines to a whole input. -/
def serve (disabled : Option String) (input : String) (wording : Wording := .plain) :
    List String :=
  (replies disabled input wording).map fun reply => reply.toJson.render

end Reckoner.Service
