import Reckoner.Proofs.BodyRuns

/-! # Where faults come from

A fault arises at a leaf of what was read, and everything above hands it on unchanged.  A leaf is a
piece of the text, whatever the text looks like: a literal that is none, a call with a wrong number
of arguments, or a call that failed (`Origin`, `origin_of_eval`).  What a text may not show of itself
(`evaluate_faults_accounted`) can therefore only have been returned by a body that ran.
-/

namespace Reckoner

open Text (joinCommas strip)

/-- Where in a text a fault can come from, given the bodies that have run. -/
inductive Origin (known : Repertoire) (text : List Char) (runs : List BodyRun) : Fault → Prop where
  /-- A piece of the text is no number. -/
  | rejected {piece : List Char} (stands : piece <:+: text)
      (rejected : Literal.parse piece = .error (.invalidNumber (String.ofList piece))) :
      Origin known text runs (.invalidNumber (String.ofList piece))
  /-- A call in the text has a number of arguments that the function does not take. -/
  | miscounted {f : Function} {count : Nat} (member : f ∈ known.functions)
      (called : f.name.toList ++ ['('] <:+: text) (refused : f.arity.accepts count = false) :
      Origin known text runs (.arityMismatch f.name f.arity count)
  /-- A call in the text was made, and it failed. -/
  | failed {f : Function} {args : List Float} {fault : Fault} (member : f ∈ known.functions)
      (called : f.name.toList ++ ['('] <:+: text) (accepted : f.arity.accepts args.length = true)
      (ran : ⟨f.name, args⟩ ∈ runs) (failed : f.invoke args = .error fault) :
      Origin known text runs fault

variable {known : Repertoire}

theorem Origin.mono {text whole : List Char} {runs more : List BodyRun} {fault : Fault}
    (h : Origin known text runs fault) (part : text <:+: whole) (subset : runs ⊆ more) :
    Origin known whole more fault := by
  cases h with
  | rejected stands rejected => exact .rejected (stands.trans part) rejected
  | miscounted member called refused => exact .miscounted member (called.trans part) refused
  | failed member called accepted ran failed =>
    exact .failed member (called.trans part) accepted (subset ran) failed

theorem origin_of_parse {text : List Char} {runs : List BodyRun} {fault : Fault}
    (h : Literal.parse text = .error fault) : Origin known text runs fault := by
  have rejected : fault = .invalidNumber (String.ofList text) := by
    unfold Literal.parse at h
    split at h <;> cases h
    rfl
  subst rejected
  exact .rejected List.infix_rfl h

namespace Expression

theorem eval_call_of_unknown {name : List Char} {args : List Expression}
    (unknown : known.get? (String.ofList name) = none) :
    (call name args).eval known = Literal.parse (call name args).chars := by
  rw [eval, unknown, Literal.parse_of_mem (c := ')') (by simp) (by simp [chars])]

theorem eval_call_of_known {name : List Char} {args : List Expression} {f : Function}
    (found : known.get? (String.ofList name) = some f) :
    (call name args).eval known = evalAll known args >>= f.invoke := by
  rw [eval, found]
  cases evalAll known args <;> rfl

mutual

/-- Wherever a fault arises, the pieces and the runs around it are those of the whole. -/
theorem origin_of_eval : (e : Expression) → {fault : Fault} → e.eval known = .error fault →
    Origin known e.chars (e.bodyRuns known) fault
  | literal text, fault, h => by
    rw [eval] at h
    exact origin_of_parse h
  | binary o left right, fault, h => by
    rw [bodyRuns]
    cases hleft : left.eval known with
    | error first =>
      rw [eval, hleft] at h
      cases h
      exact (origin_of_eval left hleft).mono (infix_left o left right) (List.subset_append_left _ _)
    | ok x =>
      have hright : right.eval known = .error fault := by
        cases eval_binary_error h with
        | inl failed =>
          rw [hleft] at failed
          cases failed
        | inr failed => exact failed
      exact (origin_of_eval right hright).mono (infix_right o left right)
        (List.subset_append_right _ _)
  | signed negative operand, fault, h =>
    (origin_of_eval operand (eval_signed_error h)).mono (infix_operand negative operand)
      (List.Subset.refl _)
  | group inner, fault, h => by
    rw [eval] at h
    exact (origin_of_eval inner h).mono (infix_inner inner) (List.Subset.refl _)
  | call name args, fault, h => by
    cases found : known.get? (String.ofList name) with
    | none =>
      rw [eval_call_of_unknown found] at h
      exact origin_of_parse h
    | some f =>
      rw [eval_call_of_known found] at h
      cases hvalues : evalAll known args with
      | error first =>
        rw [hvalues] at h
        cases h
        exact (origin_of_evalAll args hvalues).mono (infix_arguments name args) fun run member =>
          (mem_bodyRuns_call found).2 (.inl member)
      | ok values =>
        have hinvoke : f.invoke values = .error fault := by
          rw [hvalues] at h
          exact h
        obtain ⟨member, hname⟩ := Repertoire.mem_of_get? found
        have called : f.name.toList ++ ['('] <:+: (call name args).chars := by
          rw [hname, String.toList_ofList]
          exact infix_of_called _ name (List.mem_cons_self ..)
        cases accepted : f.arity.accepts values.length with
        | true =>
          exact .failed member called accepted
            ((mem_bodyRuns_call found).2 (.inr ⟨values, hvalues, accepted, rfl⟩)) hinvoke
        | false =>
          rw [Function.invoke_of_refused accepted] at hinvoke
          cases hinvoke
          exact .miscounted member called accepted

theorem origin_of_evalAll : (args : List Expression) → {fault : Fault} →
    evalAll known args = .error fault →
    Origin known (joinCommas (charsOfAll args)) (bodyRunsOfAll known args) fault
  | [], fault, h => by
    cases h
  | arg :: args, fault, h => by
    rw [bodyRunsOfAll]
    rw [evalAll] at h
    cases harg : arg.eval known with
    | error first =>
      rw [harg] at h
      cases h
      exact (origin_of_eval arg harg).mono (infix_first arg args) (List.subset_append_left _ _)
    | ok x =>
      cases hargs : evalAll known args with
      | error first =>
        rw [harg, hargs] at h
        cases h
        exact (origin_of_evalAll args hargs).mono (infix_others arg args)
          (List.subset_append_right _ _)
      | ok xs =>
        rw [harg, hargs] at h
        cases h

end

end Expression

/-- Guards and arities make faults of their own, but only of two kinds. -/
theorem Function.body_of_invoke {f : Function} {args : List Float} {fault : Fault}
    (accepted : f.arity.accepts args.length = true) (failed : f.invoke args = .error fault)
    (kind : fault.kind ≠ .invocationFailure) : f.body args = .failed fault := by
  rw [invoke, if_pos accepted] at failed
  cases hbody : f.body args with
  | returned value =>
    rw [hbody] at failed
    cases failed
  | failed reason =>
    rw [hbody] at failed
    cases failed
    rfl
  | crashed note =>
    rw [hbody] at failed
    cases failed
    exact absurd rfl kind

namespace Repertoire

open Expression (ofChars lengthLimit)

theorem origin_of_evaluate {text : String} {fault : Fault}
    (fits : (strip text.toList).length ≤ lengthLimit) (h : known.evaluate text = .error fault) :
    Origin known (strip text.toList) (known.bodyRuns text) fault := by
  rw [evaluate_of_fits known fits] at h
  have origin := Expression.origin_of_eval _ h
  rwa [Expression.chars_ofChars, ← bodyRuns_of_fits fits] at origin

/-- What is stored is what was added, guarded. -/
theorem exists_added {added : List Function} (inserted : empty.insertAll added = .ok known) :
    ∀ f ∈ known.functions, ∃ g ∈ added, f = g.guard := by
  intro f member
  rw [functions_of_insertAll inserted] at member
  obtain ⟨g, inAdded, rfl⟩ := List.mem_map.1 (by simpa [empty] using member)
  exact ⟨g, inAdded, rfl⟩

/-- What no text gives rise to has been returned by a body that ran. -/
theorem exists_body_of_fault {added : List Function} (inserted : empty.insertAll added = .ok known)
    {text : String} {fault : Fault} (h : known.evaluate text = .error fault)
    (kind : fault.kind = .configurationError ∨ fault.kind = .duplicateName ∨
      fault.kind = .expressionTooLong ∧ (strip text.toList).length ≤ lengthLimit) :
    ∃ f ∈ added, ∃ args, ⟨f.name, args⟩ ∈ known.bodyRuns text ∧ f.body args = .failed fault := by
  by_cases fits : (strip text.toList).length ≤ lengthLimit
  · cases origin_of_evaluate fits h with
    | rejected => simp [Fault.kind] at kind
    | miscounted => simp [Fault.kind] at kind
    | @failed f args _ member called accepted ran failed =>
      obtain ⟨g, inAdded, rfl⟩ := exists_added inserted f member
      rw [Function.invoke_guard] at failed
      refine ⟨g, inAdded, args, ran, Function.body_of_invoke accepted failed ?_⟩
      intro other
      simp [other] at kind
  · rw [evaluate_of_long known (Nat.lt_of_not_le fits)] at h
    cases h
    simp [Fault.kind, fits] at kind

/-- A text that is too long is refused and runs no body.  Any other fault comes from a piece of the
text that is no number, from a call in it with a number of arguments that the function does not
take, or from a call in it that was made and failed; bodies run on numbers of arguments that they
take and on no other, and what no text gives rise to has been returned by one of them.  The runs
are all that the value or the fault owes to the bodies. -/
theorem evaluate_faults_accounted {added : List Function} {known : Repertoire}
    (inserted : empty.insertAll added = .ok known) (text : String) :
    let chars := strip text.toList
    let runs := known.bodyRuns text
    (lengthLimit < chars.length →
      known.evaluate text = .error (.expressionTooLong chars.length lengthLimit) ∧ runs = []) ∧
    (chars.length ≤ lengthLimit → ∀ fault, known.evaluate text = .error fault →
      Origin known chars runs fault) ∧
    (∀ run ∈ runs, ∃ f ∈ added, f.name = run.function ∧
      f.arity.accepts run.args.length = true) ∧
    (∀ fault, known.evaluate text = .error fault →
      fault.kind = .configurationError ∨ fault.kind = .duplicateName ∨
        fault.kind = .expressionTooLong ∧ chars.length ≤ lengthLimit →
      ∃ f ∈ added, ∃ args, ⟨f.name, args⟩ ∈ runs ∧ f.body args = .failed fault) ∧
    ∀ (others : List Function) (other : Repertoire), empty.insertAll others = .ok other →
      List.Forall₂ (AlikeOn runs) added others → other.evaluate text = known.evaluate text := by
  intro chars runs
  refine ⟨?_, ?_, ?_, ?_, ?_⟩
  · intro long
    exact ⟨evaluate_of_long known long, bodyRuns_of_long known long⟩
  · exact fun fits fault h => origin_of_evaluate fits h
  · intro run member
    obtain ⟨f, inKnown, hname, accepted⟩ := due_of_mem_bodyRuns run member
    obtain ⟨g, inAdded, rfl⟩ := exists_added inserted f inKnown
    exact ⟨g, inAdded, hname, accepted⟩
  · exact fun fault h kind => exists_body_of_fault inserted h kind
  · intro others other insertedOther alike
    exact evaluate_of_agree (agree_of_insertAll inserted insertedOther alike)

/-- A fault that evaluation never makes on its own comes out of the body that ran. -/
theorem evaluate_faults_accounted_configuration :
    let fault : Fault := .configuration "f" "no table"
    let unset : Function := { name := "f", arity := .atLeast 0, body := fun _ => .failed fault }
    let known : Repertoire := ⟨[unset.guard]⟩
    empty.insertAll [unset] = .ok known ∧ known.evaluate "f()" = .error fault ∧
      fault.kind = .configurationError ∧
      ∃ f ∈ [unset], ∃ args, ⟨f.name, args⟩ ∈ known.bodyRuns "f()" ∧
        f.body args = .failed fault := by
  intro fault unset known
  have checked : Function.checkName "f" = .ok () := rfl
  have inserted : empty.insertAll [unset] = .ok known := by
    rw [insertAll, List.foldlM_cons, insert_eq_ok_iff.2 ⟨checked, List.not_mem_nil, rfl⟩]
    rfl
  have written : callText "f" [] = "f()" := by decide
  have fits : (strip (callText "f" []).toList).length ≤ lengthLimit := by
    rw [written]
    decide
  have evaluated : known.evaluate "f()" = .error fault := by
    rw [← written]
    exact evaluate_callText_of_callable (built_single checked) (List.mem_cons_self ..) (by decide)
      .nil fits
  obtain ⟨-, -, -, returned, -⟩ := evaluate_faults_accounted inserted "f()"
  exact ⟨inserted, evaluated, rfl, returned fault evaluated (.inl rfl)⟩

end Repertoire

end Reckoner
