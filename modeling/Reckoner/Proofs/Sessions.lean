import Reckoner.Proofs.Reloads
import Reckoner.Service.Session

/-! # Sessions

The registry of a session differs from the one it began with only in its generation: a reload sees
the catalogue and the exclusions, and these never change (`perform_atGeneration`).  A reply is
therefore the one that a new session gives to the same line, apart from the generation that it
shows, and this counts the reloads so far (`serve_independent`).
-/

namespace Reckoner

/-! ## Generations -/

/-- The registry as it would be under another generation. -/
def Registry.atGeneration (registry : Registry) (generation : Nat) : Registry :=
  { registry with generation := generation }

/-- The same value with another generation, if it is an object that shows one. -/
def Json.atGeneration (generation : Nat) : Json → Json
  | .object members => .object (members.map fun member =>
      if member.1 = "generation" then ("generation", .ofNat generation) else member)
  | value => value

namespace Service

/-- The same reply with another generation, if its result shows one. -/
def Reply.atGeneration (generation : Nat) (reply : Reply) : Reply :=
  { reply with outcome := reply.outcome.map (Json.atGeneration generation) }

/-- The generation that the result of a reply shows. -/
def Reply.generation? (reply : Reply) : Option Json :=
  match reply.outcome with
  | .ok (.object members) => members.lookup "generation"
  | _ => none

/-- Whether the result of a method shows the generation. -/
def Method.showsGeneration : Method → Bool
  | .listFunctions | .reloadFunctions => true
  | _ => false

/-- The request of a line, blanks around it not counted. -/
def request? (line : List Char) : Option Request :=
  Request.read? (Text.trim line)

/-- Whether a line is a request for a reload. A notification is one too. -/
def isReload (line : List Char) : Bool :=
  (request? line).any fun request => request.method = .reloadFunctions

/-- The reply to a line by a session that begins with it. -/
def firstReply (wording : Wording) (disabled : Option String) (line : List Char) : Option Reply :=
  (answerLine wording (start disabled) line).2

/-! ## Methods -/

theorem atGeneration_ofReadout (generation : Nat) (readout : Readout) :
    (ofReadout readout).map (Json.atGeneration generation) = ofReadout readout := by
  rw [ofReadout]
  cases readout.fault with
  | some fault => rfl
  | none => simp [Except.map, Json.atGeneration]

variable {wording : Wording}

theorem atGeneration_evaluate (generation : Nat) (functions : Repertoire) (params : Option Json) :
    (evaluate wording functions params).map (Json.atGeneration generation) =
      evaluate wording functions params := by
  cases params with
  | none => rfl
  | some params =>
    rw [evaluate]
    cases Query.ofJson? params with
    | none => rfl
    | some query => exact atGeneration_ofReadout generation _

/-- The generation of a reload takes its place among the members of the report. -/
theorem reloadResult_eq (generation : Nat) (report : Discovery.Report) :
    reloadResult generation report = .object
      [("disabled", .ofTexts report.disabled), ("duplicates", .ofTexts report.duplicates),
        ("failures", .array (report.failures.map Discovery.Failure.toJson)),
        ("generation", .ofNat generation), ("registered", .ofTexts report.registered)] := by
  have order : "generation" < "registered" ∧ ¬ "generation" < "disabled" ∧
      ¬ "generation" < "duplicates" ∧ ¬ "generation" < "failures" ∧ "failures" < "registered" ∧
      "duplicates" < "failures" ∧ "disabled" < "duplicates" := by decide
  simp [reloadResult, Json.ofMembers, Discovery.Report.members, Json.addMember, order]

theorem perform_reload (registry : Registry) (params : Option Json) :
    perform wording registry .reloadFunctions params =
      (registry.reload.1,
        .ok (reloadResult registry.reload.1.generation registry.reload.2)) := rfl

variable {registry : Registry}

/-- Under another generation a method does what it did, and its result differs in the generation. -/
theorem perform_atGeneration (steady : registry.reload.1.functions = registry.functions)
    (generation : Nat) (method : Method) (params : Option Json) :
    let next := generation + if method = .reloadFunctions then 1 else 0
    perform wording (registry.atGeneration generation) method params =
      (registry.atGeneration next,
        (perform wording registry method params).2.map (Json.atGeneration next)) := by
  intro next
  cases method with
  | handshake | acknowledge => rfl
  | evaluate =>
    exact congrArg (Prod.mk _) (atGeneration_evaluate generation _ params).symm
  | listFunctions => rfl
  | reloadFunctions =>
    -- The pass does not see the generation, and what it finds is published already.
    have published : (registry.atGeneration generation).reload =
        (registry.atGeneration (generation + 1), registry.reload.2) := by
      have found : (registry.atGeneration generation).reload =
          ({ registry with functions := registry.reload.1.functions,
                           generation := generation + 1 }, registry.reload.2) := rfl
      rw [found, steady]
      rfl
    rw [perform_reload, published, perform_reload, reloadResult_eq, reloadResult_eq]
    rfl
  | unknown name => rfl

/-- The generation is all that may change in a reply. -/
theorem atGeneration_reply (wording : Wording) (id : Option Json) (registry : Registry)
    (method : Method) (params : Option Json) (generation : Nat) :
    let reply : Reply := ⟨id, (perform wording registry method params).2⟩
    if method.showsGeneration then
      (reply.atGeneration generation).generation? = some (.ofNat generation)
    else reply.atGeneration generation = reply := by
  cases method with
  | handshake | acknowledge | unknown name => rfl
  | evaluate =>
    exact congrArg (Reply.mk id) (atGeneration_evaluate generation registry.functions params)
  | listFunctions => rfl
  | reloadFunctions =>
    rw [perform_reload, reloadResult_eq]
    rfl

/-! ## Lines -/

theorem request?_of_blank {line : List Char} (blank : Text.trim line = []) :
    request? line = none := by
  rw [request?, blank]
  rfl

theorem answerLine_of_none {line : List Char} (nonblank : Text.trim line ≠ [])
    (unread : request? line = none) (registry : Registry) :
    answerLine wording registry line =
      (registry, some ⟨none, .error (.malformed (wording.line (String.ofList (Text.trim line))))⟩) := by
  rw [request?] at unread
  rw [answerLine, if_neg nonblank, answer, unread]

theorem answerLine_of_some {line : List Char} {request : Request}
    (read : request? line = some request) (registry : Registry) :
    answerLine wording registry line =
      ((perform wording registry request.method request.params).1,
        if request.isNotification then none
        else some ⟨request.id, (perform wording registry request.method request.params).2⟩) := by
  have nonblank : Text.trim line ≠ [] := by
    intro blank
    simp [request?_of_blank blank] at read
  rw [request?] at read
  rw [answerLine, if_neg nonblank, answer, read]

theorem answerLine_atGeneration (steady : registry.reload.1.functions = registry.functions)
    (generation : Nat) (line : List Char) :
    let next := generation + if isReload line then 1 else 0
    answerLine wording (registry.atGeneration generation) line =
      (registry.atGeneration next,
        (answerLine wording registry line).2.map (Reply.atGeneration next)) := by
  intro next
  cases read : request? line with
  | none =>
    have same : next = generation := by simp [next, isReload, read]
    by_cases blank : Text.trim line = []
    · rw [answerLine, if_pos blank, answerLine, if_pos blank, same]
      rfl
    · rw [answerLine_of_none blank read, answerLine_of_none blank read, same]
      rfl
  | some request =>
    have same : next = generation + if request.method = .reloadFunctions then 1 else 0 := by
      simp [next, isReload, read]
    rw [answerLine_of_some read, answerLine_of_some read, perform_atGeneration steady, ← same]
    by_cases silent : request.isNotification = true
    · simp [silent]
    · simp [silent, Reply.atGeneration]

/-! ## Inputs -/

theorem answerAll_atGeneration (steady : registry.reload.1.functions = registry.functions)
    (generation : Nat) (lines : List (List Char)) :
    answerAll wording (registry.atGeneration generation) lines = lines.mapIdx fun i line =>
      (answerLine wording registry line).2.map
        (Reply.atGeneration (generation + (lines.take (i + 1)).countP isReload)) := by
  induction lines generalizing generation with
  | nil => rfl
  | cons line lines ih =>
    rw [answerAll, answerLine_atGeneration steady, List.mapIdx_cons]
    refine congrArg₂ List.cons ?_ ?_
    · simp [List.countP_singleton]
    · rw [ih]
      refine congrArg₂ List.mapIdx ?_ rfl
      funext i line'
      -- A reload by the first line counts for all the lines behind it.
      rw [List.take_succ_cons, List.countP_cons]
      congr 2
      omega

/-- Only the answers to two methods show a generation, and it is all that changes in them. -/
theorem firstReply_atGeneration (disabled : Option String) (line : List Char) (generation : Nat) :
    let reply := firstReply wording disabled line
    let shown := reply.map (Reply.atGeneration generation)
    if (request? line).any (fun request => request.method.showsGeneration) then
      shown.bind Reply.generation? = reply.map fun _ => .ofNat generation
    else shown = reply := by
  intro reply shown
  cases read : request? line with
  | none =>
    by_cases blank : Text.trim line = []
    · simp [shown, reply, firstReply, answerLine, blank]
    · simp only [shown, reply, firstReply, answerLine_of_none blank read]
      rfl
  | some request =>
    have changed := atGeneration_reply wording request.id (start disabled) request.method
      request.params generation
    simp only [shown, reply, firstReply, answerLine_of_some read, Option.any_some]
    cases request.isNotification with
    | true => simp
    | false => split at changed <;> simp_all

/-- A reload finds again what has been discovered first. -/
theorem functions_reload_discover (catalogue : Catalogue) (exclusions : Exclusions) :
    (Registry.create catalogue exclusions).discover.1.reload.1.functions =
      (Registry.create catalogue exclusions).discover.1.functions :=
  rfl

theorem functions_reload_start (disabled : Option String) :
    (start disabled).reload.1.functions = (start disabled).functions := by
  rw [start, Library.registry]
  exact functions_reload_discover _ _

theorem atGeneration_start (disabled : Option String) :
    (start disabled).atGeneration 1 = start disabled :=
  rfl

/-- The replies to lines, each as by a session that begins with its line.  What is shown as generation
is one more than the reloads up to and with the line. -/
def repliesApart (wording : Wording) (disabled : Option String) (lines : List (List Char)) :
    List (Option Reply) :=
  lines.mapIdx fun i line =>
    (firstReply wording disabled line).map
      (Reply.atGeneration (1 + (lines.take (i + 1)).countP isReload))

/-- Every line is answered as by a session that begins with it, whatever the readers say about what
they refuse.  Only what is shown as generation depends on the lines before it. -/
theorem serve_independent (wording : Wording) (disabled : Option String) (input : String) :
    answerAll wording (start disabled) (Text.splitOn '\n' input.toList) =
        repliesApart wording disabled (Text.splitOn '\n' input.toList) ∧
      serve disabled input wording =
        ((repliesApart wording disabled (Text.splitOn '\n' input.toList)).filterMap id).map
          (fun reply => reply.toJson.render) ∧
      ∀ line generation,
        if (request? line).any (fun request => request.method.showsGeneration) then
          ((firstReply wording disabled line).map
              (Reply.atGeneration generation)).bind Reply.generation? =
            (firstReply wording disabled line).map fun _ => .ofNat generation
        else (firstReply wording disabled line).map (Reply.atGeneration generation) =
          firstReply wording disabled line := by
  have answered : answerAll wording (start disabled) (Text.splitOn '\n' input.toList) =
      repliesApart wording disabled (Text.splitOn '\n' input.toList) := by
    have steady := functions_reload_start disabled
    rw [← atGeneration_start disabled, answerAll_atGeneration steady]
    rfl
  have served : serve disabled input wording =
      ((answerAll wording (start disabled) (Text.splitOn '\n' input.toList)).filterMap id).map
        fun reply => reply.toJson.render := rfl
  exact ⟨answered, by rw [served, answered], firstReply_atGeneration disabled⟩

end Service
end Reckoner
