import Reckoner.Proofs.Writable

/-! # Replies and their lines

Every line that is neither blank nor a notification gets one reply, on one line of its own and in
its turn, and whoever reads that line reads the reply (`serve_aligned`).  What a reply has to be is
said by `Answers`: which identifier it carries, and which of its errors stands for which fault of
the line.
-/

namespace Reckoner

/-! ## Members of a value -/

def Json.members : Json → List (String × Json)
  | .object members => members
  | _ => []

def Json.member? (json : Json) (key : String) : Option Json :=
  json.members.lookup key

namespace Service

open Json (Document)

/-! ## What a line gives -/

/-- The members of a request in their order. -/
def memberNames : List String := ["jsonrpc", "id", "method", "params"]

/-- What a line gives for a member of a request. -/
def given? (line : List Char) (name : String) : Option Document :=
  ((Document.read? (Text.trim line)).bind (Document.fields? memberNames 3)).bind fun given =>
    (given[memberNames.idxOf name]?).join

/-- The name that a line gives for the method. -/
def methodName? (line : List Char) : Option String :=
  (given? line "method").bind Document.string?

/-- A request holds what its line gives. -/
structure Gives (line : List Char) (request : Request) : Prop where
  identified : optional? (given? line "id") = some request.id
  named : ∃ name, methodName? line = some name ∧ request.method = .ofName name
  parameters : optional? (given? line "params") = some request.params

theorem gives_of_request? {line : List Char} {request : Request}
    (read : request? line = some request) : Gives line request := by
  rw [request?, Request.read?] at read
  obtain ⟨document, parsed, decoded⟩ := Option.bind_eq_some_iff.1 read
  unfold Request.ofDocument? at decoded
  split at decoded
  · next version id method params fields =>
    have given (name : String) : given? line name =
        ([some version, id, some method, params][memberNames.idxOf name]?).join := by
      rw [given?, parsed, Option.bind_some, memberNames, fields, Option.bind_some]
    split at decoded
    · next version' id' name params' _ identified named parameters =>
      cases decoded
      refine ⟨?_, ⟨name, ?_, rfl⟩, ?_⟩
      · exact (congrArg optional? (given "id")).trans identified
      · rw [methodName?, given]
        exact named
      · exact (congrArg optional? (given "params")).trans parameters
    · cases decoded
  · cases decoded

theorem optional?_eq_none_iff {member : Option Document} :
    optional? member = some none ↔ ∀ document ∈ member, document.isNull = true := by
  cases member with
  | none => simp [optional?]
  | some document => by_cases null : document.isNull = true <;> simp [optional?, null]

theorem optional?_eq_some_iff {member : Option Document} {value : Json} :
    optional? member = some (some value) ↔ ∃ document, member = some document ∧
      document.isNull = false ∧ document.toJson? (depthLimit - 1) = some value := by
  cases member with
  | none => simp [optional?]
  | some document => by_cases null : document.isNull = true <;> simp [optional?, null]

/-! ## Methods and codes -/

/-- The names of the methods. -/
def methodNames : List String :=
  ["initialize", "initialized", "ping", "evaluate", "functions/list", "functions/reload"]

/-- The code of an outcome that is a rejection. -/
def code? : Except Rejection Json → Option Int
  | .error rejection => some rejection.code
  | .ok _ => none

theorem unknown_of_ofName {name other : String} (unknown : Method.ofName name = .unknown other) :
    name ∉ methodNames := by
  intro known
  have table : ∀ name ∈ methodNames, ∀ other, Method.ofName name ≠ .unknown other := by
    simp [methodNames, Method.ofName]
  exact table name known other unknown

theorem ofName_of_unknown {name : String} (unknown : name ∉ methodNames) :
    Method.ofName name = .unknown name := by
  simp only [methodNames, List.mem_cons, List.not_mem_nil, or_false, not_or] at unknown
  simp [Method.ofName, unknown]

theorem ofName_eq_evaluate_iff {name : String} :
    Method.ofName name = .evaluate ↔ name = "evaluate" := by
  constructor
  · intro evaluates
    unfold Method.ofName at evaluates
    split at evaluates
    · cases evaluates
    · split at evaluates
      · cases evaluates
      · split at evaluates
        · assumption
        · split at evaluates
          · cases evaluates
          · split at evaluates <;> cases evaluates
  · rintro rfl
    rfl

variable {wording : Wording}

/-- The code of an evaluation tells whether there was a query. -/
theorem code?_evaluate (functions : Repertoire) (params : Option Json) :
    code? (evaluate wording functions params) ≠ some (-32601) ∧
      (code? (evaluate wording functions params) = some (-32602) ↔
        params.bind Query.ofJson? = none) := by
  have shown (readout : Readout) : code? (ofReadout readout) = none ∨
      code? (ofReadout readout) = some (-32000) := by
    unfold ofReadout
    split
    · exact .inr rfl
    · exact .inl rfl
  cases params with
  | none => simp [evaluate, code?, Rejection.code]
  | some params =>
    cases query : Query.ofJson? params with
    | none => simp [evaluate, query, code?, Rejection.code]
    | some query' =>
      rw [evaluate, query, Option.bind_some, query]
      obtain code | code := shown (functions.readout query'.expression query'.mode) <;>
        simp [code]

theorem code?_perform (registry : Registry) (name : String) (params : Option Json) :
    (code? (perform wording registry (.ofName name) params).2 = some (-32601) ↔
        name ∉ methodNames) ∧
      (code? (perform wording registry (.ofName name) params).2 = some (-32602) ↔
        name = "evaluate" ∧ params.bind Query.ofJson? = none) := by
  rw [← ofName_eq_evaluate_iff]
  by_cases known : name ∈ methodNames
  · have listed (other : String) : Method.ofName name ≠ .unknown other :=
      fun unknown => unknown_of_ofName unknown known
    cases method : Method.ofName name with
    | handshake | acknowledge | listFunctions | reloadFunctions => simp [perform, code?, known]
    | evaluate =>
      obtain ⟨no_method, no_query⟩ := @code?_evaluate wording registry.functions params
      simp [perform, known, no_method, no_query]
    | unknown other => exact absurd method (listed other)
  · simp [ofName_of_unknown known, perform, code?, Rejection.code, known]

/-! ## The value of a reply -/

/-- The code that the value of a reply shows. -/
def errorCode? (reply : Json) : Option Int :=
  match (reply.member? "error").bind fun rejection => rejection.member? "code" with
  | some (.number (.integer code)) => some code
  | _ => none

/-- What every reply shows: the version of the protocol, the identifier if there is one, and either
a result or an error. -/
structure IsReply (id : Option Json) (reply : Json) : Prop where
  version : reply.member? "jsonrpc" = some (.text "2.0")
  identifier : reply.member? "id" = id
  outcome : (reply.member? "result").isSome = !(reply.member? "error").isSome
  distinct : (reply.members.map Prod.fst).Nodup

theorem isReply_toJson (reply : Reply) : IsReply reply.id reply.toJson := by
  obtain ⟨id, outcome⟩ := reply
  cases id <;> cases outcome <;>
    exact ⟨rfl, rfl, rfl, by simp [Reply.toJson, Json.members]⟩

theorem errorCode?_toJson (reply : Reply) : errorCode? reply.toJson = code? reply.outcome := by
  obtain ⟨id, outcome⟩ := reply
  cases id <;> cases outcome <;> rfl

/-! ## Lines and replies -/

/-- What a session may answer to a line. -/
inductive Answers (line : List Char) : Option Json → Prop
  | blank (blank : Text.allBlank line = true) : Answers line none
  /-- A request whose identifier is missing or null. -/
  | notification {request : Request} (read : request? line = some request)
      (unidentified : ∀ document ∈ given? line "id", document.isNull = true) : Answers line none
  | malformed {reply : Json} (nonblank : Text.allBlank line = false)
      (unread : request? line = none) (shows : IsReply none reply)
      (code : errorCode? reply = some (-32700)) : Answers line (some reply)
  | request {request : Request} {document : Document} {id : Json} {name : String} {reply : Json}
      (read : request? line = some request) (given : given? line "id" = some document)
      (identified : document.isNull = false)
      (value : document.toJson? (depthLimit - 1) = some id)
      (named : methodName? line = some name) (shows : IsReply (some id) reply)
      (unknown : errorCode? reply = some (-32601) ↔ name ∉ methodNames)
      (invalid : errorCode? reply = some (-32602) ↔
        name = "evaluate" ∧ request.params.bind Query.ofJson? = none) : Answers line (some reply)

theorem trim_eq_nil_iff {text : List Char} : Text.trim text = [] ↔ Text.allBlank text = true := by
  rw [Text.trim, List.reverse_eq_nil_iff, List.dropWhile_eq_nil_iff, Text.allBlank,
    List.all_eq_true]
  constructor
  · intro rest
    rw [← List.takeWhile_append_dropWhile (p := Text.isBlank) (l := text)]
    exact List.forall_mem_append.2
      ⟨fun c hc => List.mem_takeWhile_imp hc, fun c hc => rest c (List.mem_reverse.2 hc)⟩
  · intro blank c hc
    exact blank c ((List.dropWhile_sublist _).subset (List.mem_reverse.1 hc))

/-- One line is answered as it has to be, whatever went before it. -/
theorem answers_answerLine (registry : Registry) (line : List Char) :
    Answers line ((answerLine wording registry line).2.map Reply.toJson) := by
  cases read : request? line with
  | none =>
    by_cases blank : Text.allBlank line = true
    · rw [answerLine, if_pos (trim_eq_nil_iff.2 blank)]
      exact .blank blank
    · rw [answerLine_of_none (fun trimmed => blank (trim_eq_nil_iff.1 trimmed)) read]
      exact .malformed (Bool.eq_false_iff.2 blank) read (isReply_toJson ⟨none, _⟩) rfl
  | some request =>
    obtain ⟨identified, ⟨name, named, method⟩, -⟩ := gives_of_request? read
    rw [answerLine_of_some read]
    cases id : request.id with
    | none =>
      -- The request is carried out all the same, but nothing is said.
      rw [Request.isNotification, id]
      rw [id] at identified
      exact .notification read (optional?_eq_none_iff.1 identified)
    | some value =>
      rw [id] at identified
      obtain ⟨document, given, nonnull, value⟩ := optional?_eq_some_iff.1 identified
      obtain ⟨unknown, invalid⟩ := @code?_perform wording registry name request.params
      rw [← method, ← errorCode?_toJson ⟨request.id, _⟩] at unknown invalid
      rw [Request.isNotification, id]
      rw [id] at unknown invalid
      exact .request read given nonnull value named (isReply_toJson ⟨some _, _⟩) unknown invalid

theorem answers_answerAll (registry : Registry) (lines : List (List Char)) :
    List.Forall₂ Answers lines
      ((answerAll wording registry lines).map fun reply => reply.map Reply.toJson) := by
  induction lines generalizing registry with
  | nil => exact .nil
  | cons line lines ih => exact .cons (answers_answerLine registry line) (ih _)

/-- The replies to an input stand in the order of its lines, one for each that has to be answered,
and each is one line of the output.  A reading that loses nothing reads these lines as the replies,
in their order, as long as the generation keeps to 64 bits. -/
theorem serve_aligned (wording : Wording) (disabled : Option String) (input : String) :
    ∃ replies : List (Option Json),
      List.Forall₂ Answers (Text.splitOn '\n' input.toList) replies ∧
        serve disabled input wording = (replies.filterMap id).map Json.render ∧
        (∀ text ∈ serve disabled input wording, '\n' ∉ text.toList) ∧
        ∀ numbers, Json.Number.Lossless numbers →
          1 + (Text.splitOn '\n' input.toList).countP isReload < 2 ^ 64 →
          List.Forall₂
            (fun text reply => Document.readBy? numbers text.toList = some (.ofJson reply))
            (serve disabled input wording) (replies.filterMap id) := by
  have served : serve disabled input wording =
      (((answerAll wording (start disabled) (Text.splitOn '\n' input.toList)).map
        fun reply => reply.map Reply.toJson).filterMap id).map Json.render := by
    rw [serve, Service.replies, List.filterMap_map, List.map_filterMap, List.map_filterMap]
    refine congrArg₂ List.filterMap ?_ rfl
    funext reply
    cases reply <;> rfl
  refine ⟨_, answers_answerAll (start disabled) _, served, ?_, ?_⟩
  · intro text member
    obtain ⟨reply, -, rfl⟩ := List.mem_map.1 member
    rw [Json.render, String.toList_ofList]
    exact Json.newline_not_mem_chars reply.toJson
  · intro numbers lossless few
    have steady := functions_reload_start disabled
    have writable := @writable_answerAll wording _ steady (writable_start disabled) _ _ few
    rw [atGeneration_start] at writable
    rw [served, List.forall₂_map_left_iff, List.forall₂_same]
    intro json member
    obtain ⟨answer, listed, same⟩ := List.mem_filterMap.1 member
    obtain ⟨reply, given, rfl⟩ := List.mem_map.1 listed
    obtain ⟨written, rfl, rfl⟩ := Option.map_eq_some_iff.1 same
    rw [Json.render, String.toList_ofList]
    exact (writable _ given _ rfl).readBy? lossless

/-- A line that is no request, a blank one, a notification and a request. -/
theorem serve_aligned_ping :
    let silent := "\x7b\"jsonrpc\":\"2.0\",\"id\":null,\"method\":\"ping\"\x7d"
    let asked := "\x7b\"jsonrpc\":\"2.0\",\"id\":7,\"method\":\"ping\"\x7d"
    let input := "[]\n \n" ++ silent ++ "\n" ++ asked
    let refusal := "\x7b\"code\":-32700,\"message\":\"Parse error: the line is not a request\"\x7d"
    serve none input = ["\x7b\"jsonrpc\":\"2.0\",\"error\":" ++ refusal ++ "\x7d",
        "\x7b\"jsonrpc\":\"2.0\",\"id\":7,\"result\":\x7b\x7d\x7d"] ∧
      Json.Number.Lossless Json.Number.nearest ∧
      1 + (Text.splitOn '\n' input.toList).countP isReload < 2 ^ 64 ∧
      ∃ replies, List.Forall₂ Answers (Text.splitOn '\n' input.toList) replies ∧
        List.Forall₂ (fun text reply =>
            Document.readBy? Json.Number.nearest text.toList = some (.ofJson reply))
          (serve none input) (replies.filterMap id) := by
  intro silent asked input refusal
  have lines : serve none input = ["\x7b\"jsonrpc\":\"2.0\",\"error\":" ++ refusal ++ "\x7d",
      "\x7b\"jsonrpc\":\"2.0\",\"id\":7,\"result\":\x7b\x7d\x7d"] := by decide +kernel
  have few : 1 + (Text.splitOn '\n' input.toList).countP isReload < 2 ^ 64 := by decide +kernel
  obtain ⟨replies, answers, -, -, read⟩ := serve_aligned .plain none input
  exact ⟨lines, Json.Number.lossless_nearest, few, replies, answers,
    read _ Json.Number.lossless_nearest few⟩

end Service
end Reckoner
