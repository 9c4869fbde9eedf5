import Reckoner.Proofs.ReadNumbers
import Reckoner.Proofs.Sessions

/-! # Replies that can be written

A value can be written without loss if its numbers have a text (`Writable`).  All that a session
replies is of this kind: identifiers were read, results hold counts and finite floats, and the
generation keeps to 64 bits unless there are more reloads than that (`writable_answerAll`).
-/

namespace Reckoner

namespace Json

/-! ## Writable values -/

/-- All numbers of the value have a text. -/
def Writable (json : Json) : Prop :=
  ∀ n ∈ json.heldNumbers, n.Representable

@[simp] theorem writable_null : Json.null.Writable := by simp [Writable, heldNumbers]

@[simp] theorem writable_truth (value : Bool) : (truth value).Writable := by
  simp [Writable, heldNumbers]

@[simp] theorem writable_text (value : String) : (text value).Writable := by
  simp [Writable, heldNumbers]

@[simp] theorem writable_number {n : Number} : (number n).Writable ↔ n.Representable := by
  simp [Writable, heldNumbers]

@[simp] theorem writable_array {items : List Json} :
    (array items).Writable ↔ ∀ item ∈ items, item.Writable := by
  rw [Writable, heldNumbers]
  induction items with
  | nil => simp [heldByAll]
  | cons item items ih =>
    rw [heldByAll, List.forall_mem_append, ih, List.forall_mem_cons]
    rfl

@[simp] theorem writable_object {members : List (String × Json)} :
    (object members).Writable ↔ ∀ member ∈ members, member.2.Writable := by
  rw [Writable, heldNumbers]
  simp only [mem_heldByMembers]
  constructor
  · intro writable member given n held
    exact writable n ⟨member, given, held⟩
  · rintro writable n ⟨member, given, held⟩
    exact writable member given n held

@[simp] theorem writable_ofTexts (texts : List String) : (ofTexts texts).Writable := by
  simp [ofTexts]

theorem writable_ofNat {n : Nat} (fits : n < Number.significandBound) : (ofNat n).Writable := by
  rw [ofNat, writable_number]
  exact .integer ⟨by omega, by omega⟩

theorem writable_ofFloat (x : Float) : (ofFloat x).Writable := by
  rw [ofFloat]
  split
  · next negative magnitude finite => exact writable_number.2 (.real finite)
  · exact writable_null

/-- A value that can be written is read back by every reading that loses nothing. -/
theorem Writable.readBy? {json : Json} (writable : json.Writable) {numbers : Number.Reader}
    (lossless : Number.Lossless numbers) :
    Document.readBy? numbers json.chars = some (.ofJson json) := by
  apply readBy?_chars
  intro n held
  exact ⟨writable n held, lossless n (writable n held)⟩

end Json

namespace Service

open Json (Document)

variable {wording : Wording} {registry : Registry}

/-! ## Identifiers -/

/-- The identifier of a request was read, so it can be written. -/
theorem writable_of_request? {line : List Char} {request : Request}
    (read : request? line = some request) : ∀ id ∈ request.id, id.Writable := by
  obtain ⟨document, parsed, decoded⟩ := Option.bind_eq_some_iff.1 read
  have meets : document.Meets Json.Number.Representable :=
    Document.meets_of_readBy? (fun _ _ => Json.Number.representable_of_ofLexeme?) parsed
  unfold Request.ofDocument? at decoded
  split at decoded
  · next version id method params fields =>
    split at decoded
    · next version' id' name params' _ identified _ _ =>
      cases decoded
      rintro value rfl
      unfold optional? at identified
      split at identified
      · cases identified
      · next field =>
        have fieldMeets := meets.of_fields? fields field (by simp)
        split at identified
        · cases identified
        · obtain ⟨value', valued, same⟩ := Option.map_eq_some_iff.1 identified
          obtain rfl := Option.some.inj same
          exact Document.meets_of_toJson? fieldMeets valued
    · cases decoded
  · cases decoded

/-! ## Results -/

theorem writable_introduction : introduction.Writable := by
  simp [introduction]

theorem writable_ofReadout {readout : Readout} {result : Json}
    (shown : ofReadout readout = .ok result) : result.Writable := by
  unfold ofReadout at shown
  split at shown
  · cases shown
  · obtain rfl := Except.ok.inj shown
    cases readout.value <;> simp [Json.writable_ofFloat]

theorem writable_evaluate {functions : Repertoire} {params : Option Json} {result : Json}
    (evaluated : evaluate wording functions params = .ok result) : result.Writable := by
  unfold evaluate at evaluated
  split at evaluated
  · cases evaluated
  · split at evaluated
    · cases evaluated
    · exact writable_ofReadout evaluated

theorem writable_functionList (listed : ∀ f ∈ registry.functions.functions, f.toJson.Writable)
    (counted : registry.generation < Json.Number.significandBound) :
    (functionList registry).Writable := by
  simpa [functionList, Json.writable_ofNat counted] using listed

theorem writable_reloadResult {generation : Nat} (report : Discovery.Report)
    (counted : generation < Json.Number.significandBound) :
    (reloadResult generation report).Writable := by
  rw [reloadResult_eq]
  simp [Json.writable_ofNat counted, Discovery.Failure.toJson, Fault.Kind.toJson]

/-- Whatever method is carried out, its result can be written if the generation behind it can. -/
theorem writable_perform (listed : ∀ f ∈ registry.functions.functions, f.toJson.Writable)
    {method : Method} {params : Option Json} {result : Json}
    (counted : (perform wording registry method params).1.generation <
      Json.Number.significandBound)
    (done : (perform wording registry method params).2 = .ok result) : result.Writable := by
  cases method with
  | handshake =>
    obtain rfl := Except.ok.inj done
    exact writable_introduction
  | acknowledge =>
    obtain rfl := Except.ok.inj done
    simp
  | evaluate => exact writable_evaluate done
  | listFunctions =>
    obtain rfl := Except.ok.inj done
    exact writable_functionList listed counted
  | reloadFunctions =>
    obtain rfl := Except.ok.inj done
    exact writable_reloadResult _ counted
  | unknown name => cases done

/-! ## Replies -/

theorem writable_rejection (rejection : Rejection) : rejection.toJson.Writable := by
  have codes : rejection.code ∈ [-32700, -32601, -32602, -32000] := by
    cases rejection <;> simp [Rejection.code]
  have fit : ∀ code ∈ [-32700, -32601, -32602, -32000],
      -(Json.Number.negativeBound : Int) ≤ code ∧ code < Json.Number.significandBound := by decide
  have code : (Json.number (.integer rejection.code)).Writable :=
    Json.writable_number.2 (.integer (fit _ codes))
  have data : ∀ data ∈ rejection.data?, data.Writable := by
    cases rejection <;> simp [Rejection.data?, Fault.Kind.toJson]
  rw [Rejection.toJson, Json.writable_object]
  refine List.forall_mem_append.2 ⟨by simpa using code, ?_⟩
  cases given : rejection.data? with
  | none => simp
  | some value => simpa using data value given

theorem Reply.writable_toJson {reply : Reply} (identified : ∀ id ∈ reply.id, id.Writable)
    (resulted : ∀ result, reply.outcome = .ok result → result.Writable) :
    reply.toJson.Writable := by
  obtain ⟨id, outcome⟩ := reply
  have head : ∀ member ∈ [("jsonrpc", Json.text "2.0")], member.2.Writable := by simp
  rw [Reply.toJson, Json.writable_object]
  refine List.forall_mem_append.2 ⟨List.forall_mem_append.2 ⟨head, ?_⟩, ?_⟩
  · cases id with
    | none => simp
    | some id => simpa using identified id rfl
  · cases outcome with
    | ok result => simpa using resulted result rfl
    | error rejection => simpa using writable_rejection rejection

theorem writable_answerLine (listed : ∀ f ∈ registry.functions.functions, f.toJson.Writable)
    {line : List Char} (counted : (answerLine wording registry line).1.generation <
      Json.Number.significandBound) :
    ∀ reply ∈ (answerLine wording registry line).2, reply.toJson.Writable := by
  intro reply given
  cases read : request? line with
  | none =>
    by_cases blank : Text.trim line = []
    · rw [answerLine, if_pos blank] at given
      cases given
    · rw [answerLine_of_none blank read] at given
      obtain rfl := Option.some.inj given
      exact Reply.writable_toJson (by simp) (by simp)
  | some request =>
    rw [answerLine_of_some read] at given counted
    split at given
    · cases given
    · obtain rfl := Option.some.inj given
      exact Reply.writable_toJson (writable_of_request? read)
        fun result done => writable_perform listed counted done

theorem writable_answerAll (steady : registry.reload.1.functions = registry.functions)
    (listed : ∀ f ∈ registry.functions.functions, f.toJson.Writable) {generation : Nat}
    {lines : List (List Char)}
    (few : generation + lines.countP isReload < Json.Number.significandBound) :
    ∀ reply ∈ answerAll wording (registry.atGeneration generation) lines,
      ∀ written ∈ reply, written.toJson.Writable := by
  induction lines generalizing generation with
  | nil => simp [answerAll]
  | cons line lines ih =>
    rw [List.countP_cons] at few
    have next : (answerLine wording (registry.atGeneration generation) line).1 =
        registry.atGeneration (generation + if isReload line then 1 else 0) :=
      congrArg Prod.fst (answerLine_atGeneration steady generation line)
    have counted : (answerLine wording (registry.atGeneration generation) line).1.generation <
        Json.Number.significandBound := by
      rw [next]
      show generation + _ < _
      omega
    have here := @writable_answerLine wording (registry.atGeneration generation) listed line counted
    have later := @ih (generation + if isReload line then 1 else 0) (by omega)
    rw [← next] at later
    exact List.forall_mem_cons.2 ⟨here, later⟩

/-! ## The standard library -/

theorem writable_function {f : Function} (few : f.arity ∈ [.exactly 1, .exactly 2, .atLeast 1]) :
    f.toJson.Writable := by
  have arity : f.arity.toJson.Writable := by
    simp only [List.mem_cons, List.not_mem_nil, or_false] at few
    have one := Json.writable_ofNat (show 1 < Json.Number.significandBound by decide)
    have two := Json.writable_ofNat (show 2 < Json.Number.significandBound by decide)
    obtain same | same | same := few <;> simp [same, Arity.toJson, one, two]
  simp [Function.toJson, arity]

/-- The standard functions take one argument, two, or one and more. -/
theorem arity_of_candidate {candidate : Candidate} (member : candidate ∈ Library.candidates)
    {f : Function} (built : candidate.instantiate = .ok f) :
    f.arity ∈ [.exactly 1, .exactly 2, .atLeast 1] := by
  have table : (Library.candidates.all fun candidate => candidate.instantiate.toOption.all fun f =>
      f.arity ∈ [.exactly 1, .exactly 2, .atLeast 1]) = true := by rfl
  have few := List.all_eq_true.1 table candidate member
  rw [built] at few
  exact of_decide_eq_true few

theorem writable_start (disabled : Option String) :
    ∀ f ∈ (start disabled).functions.functions, f.toJson.Writable := by
  obtain ⟨more, grown, -, offered⟩ :=
    Discovery.scan_grows (Exclusions.ofSetting disabled) .empty Library.candidates
  intro f member
  have found : f ∈ more := by
    have published : (start disabled).functions.functions = more := grown
    rwa [published] at member
  obtain ⟨candidate, listed, g, built, -, rfl⟩ := offered f found
  have few := arity_of_candidate listed built
  exact writable_function few

end Service
end Reckoner
