import Reckoner.Proofs.Lookups

/-! # Which bodies an evaluation runs

The body of a function is foreign code, and an evaluation runs it only when the arguments of a call
have values and the arity takes their number.  `Expression.bodyRuns` lists these runs in order.  The
list leaves none out: an evaluation comes out the same under any other bodies that agree with the
given ones on it (`evaluate_of_agree`).  And it lists none too many: every run on it was due
(`due_of_mem_bodyRuns`), and if one fails, so does the evaluation (`eval_of_failed_run`).
-/

namespace Reckoner

/-- A run of a function's body. -/
structure BodyRun where
  function : String
  args : List Float

/-- What runs after something that may have failed. -/
def runsAfter {α : Type} (result : Except Fault α) (runs : List BodyRun) : List BodyRun :=
  match result with
  | .error _ => []
  | .ok _ => runs

theorem mem_runsAfter {α : Type} {result : Except Fault α} {runs : List BodyRun} {run : BodyRun} :
    run ∈ runsAfter result runs ↔ (∃ value, result = .ok value) ∧ run ∈ runs := by
  cases result <;> simp [runsAfter]

/-- The body runs if the arity takes the arguments. -/
def Function.bodyRuns (f : Function) (args : List Float) : List BodyRun :=
  if f.arity.accepts args.length then [⟨f.name, args⟩] else []

theorem Function.mem_bodyRuns {f : Function} {args : List Float} {run : BodyRun} :
    run ∈ f.bodyRuns args ↔ f.arity.accepts args.length = true ∧ run = ⟨f.name, args⟩ := by
  unfold bodyRuns
  split <;> simp_all

theorem Function.invoke_of_refused {f : Function} {args : List Float}
    (refused : f.arity.accepts args.length = false) :
    f.invoke args = .error (.arityMismatch f.name f.arity args.length) := by
  simp [invoke, refused]

namespace Expression

mutual

/-- The runs of bodies in the order in which they happen. -/
def bodyRuns (functions : Repertoire) : Expression → List BodyRun
  | literal _ => []
  | binary _ left right =>
    bodyRuns functions left ++ runsAfter (eval functions left) (bodyRuns functions right)
  | signed _ operand => bodyRuns functions operand
  | group inner => bodyRuns functions inner
  | call name args =>
    match functions.get? (String.ofList name) with
    | none => []
    | some f =>
      bodyRunsOfAll functions args ++
        match evalAll functions args with
        | .error _ => []
        | .ok values => f.bodyRuns values

/-- The runs of bodies while arguments are evaluated. -/
def bodyRunsOfAll (functions : Repertoire) : List Expression → List BodyRun
  | [] => []
  | arg :: args =>
    bodyRuns functions arg ++ runsAfter (eval functions arg) (bodyRunsOfAll functions args)

end

variable {known other : Repertoire}

theorem bodyRuns_of_unknown {name : List Char} {args : List Expression}
    (unknown : known.get? (String.ofList name) = none) : (call name args).bodyRuns known = [] := by
  rw [bodyRuns, unknown]

/-- A call runs the bodies that its arguments run and then, if they have values, its own. -/
theorem mem_bodyRuns_call {name : List Char} {args : List Expression} {f : Function}
    (found : known.get? (String.ofList name) = some f) {run : BodyRun} :
    run ∈ (call name args).bodyRuns known ↔ run ∈ bodyRunsOfAll known args ∨
      ∃ values, evalAll known args = .ok values ∧ f.arity.accepts values.length = true ∧
        run = ⟨f.name, values⟩ := by
  rw [bodyRuns, found]
  cases evalAll known args with
  | error fault => simp
  | ok values => simp [Function.mem_bodyRuns]

/-! ## Every run was due -/

/-- The body is that of a registered function, whose arity takes the arguments. -/
def Due (known : Repertoire) (run : BodyRun) : Prop :=
  ∃ f ∈ known.functions, f.name = run.function ∧ f.arity.accepts run.args.length = true

mutual

theorem due_of_mem_bodyRuns : (e : Expression) → ∀ run ∈ e.bodyRuns known, Due known run
  | literal text => by
    intro run member
    cases member
  | binary o left right => by
    intro run member
    rw [bodyRuns] at member
    cases List.mem_append.1 member with
    | inl inLeft => exact due_of_mem_bodyRuns left run inLeft
    | inr inRight => exact due_of_mem_bodyRuns right run (mem_runsAfter.1 inRight).2
  | signed negative operand => by
    intro run member
    exact due_of_mem_bodyRuns operand run member
  | group inner => by
    intro run member
    exact due_of_mem_bodyRuns inner run member
  | call name args => by
    intro run member
    cases found : known.get? (String.ofList name) with
    | none =>
      rw [bodyRuns_of_unknown found] at member
      cases member
    | some f =>
      cases (mem_bodyRuns_call found).1 member with
      | inl inArgs => exact due_of_mem_bodyRunsOfAll args run inArgs
      | inr own =>
        obtain ⟨values, -, accepted, rfl⟩ := own
        exact ⟨f, (Repertoire.mem_of_get? found).1, rfl, accepted⟩

theorem due_of_mem_bodyRunsOfAll : (args : List Expression) →
    ∀ run ∈ bodyRunsOfAll known args, Due known run
  | [] => by
    intro run member
    cases member
  | arg :: args => by
    intro run member
    rw [bodyRunsOfAll] at member
    cases List.mem_append.1 member with
    | inl inArg => exact due_of_mem_bodyRuns arg run inArg
    | inr inArgs => exact due_of_mem_bodyRunsOfAll args run (mem_runsAfter.1 inArgs).2

end

/-! ## A failing run is the last -/

variable {f : Function} {values : List Float} {fault : Fault}

mutual

/-- If a call on the list fails, its fault is that of the evaluation. -/
theorem eval_of_failed_run (found : known.get? f.name = some f)
    (failed : f.invoke values = .error fault) : (e : Expression) →
    ⟨f.name, values⟩ ∈ e.bodyRuns known → e.eval known = .error fault
  | literal text, member => by
    cases member
  | binary o left right, member => by
    rw [bodyRuns] at member
    rw [eval]
    cases List.mem_append.1 member with
    | inl inLeft => rw [eval_of_failed_run found failed left inLeft]
    | inr inRight =>
      obtain ⟨⟨x, hx⟩, inRight⟩ := mem_runsAfter.1 inRight
      rw [hx, eval_of_failed_run found failed right inRight]
  | signed negative operand, member => by
    rw [eval, eval_of_failed_run found failed operand member]
  | group inner, member => by
    rw [eval, eval_of_failed_run found failed inner member]
  | call name args, member => by
    cases foundCall : known.get? (String.ofList name) with
    | none =>
      rw [bodyRuns_of_unknown foundCall] at member
      cases member
    | some g =>
      rw [eval, foundCall]
      cases (mem_bodyRuns_call foundCall).1 member with
      | inl inArgs => rw [evalAll_of_failed_run found failed args inArgs]
      | inr own =>
        obtain ⟨others, hothers, -, same⟩ := own
        obtain ⟨hname, rfl⟩ := BodyRun.mk.inj same
        -- The function that was called is the one that is found under the name.
        have called := (Repertoire.mem_of_get? foundCall).2
        rw [← called, ← hname, found] at foundCall
        cases foundCall
        rw [hothers]
        exact failed

theorem evalAll_of_failed_run (found : known.get? f.name = some f)
    (failed : f.invoke values = .error fault) : (args : List Expression) →
    ⟨f.name, values⟩ ∈ bodyRunsOfAll known args → evalAll known args = .error fault
  | [], member => by
    cases member
  | arg :: args, member => by
    rw [bodyRunsOfAll] at member
    rw [evalAll]
    cases List.mem_append.1 member with
    | inl inArg => rw [eval_of_failed_run found failed arg inArg]
    | inr inArgs =>
      obtain ⟨⟨x, hx⟩, inArgs⟩ := mem_runsAfter.1 inArgs
      rw [hx, evalAll_of_failed_run found failed args inArgs]

end

/-! ## No other run matters -/

/-- The same names and arities, and calls that agree on the runs. -/
inductive Agree (runs : List BodyRun) : Option Function → Option Function → Prop where
  | unknown : Agree runs none none
  | known {f g : Function} (name : g.name = f.name) (arity : g.arity = f.arity)
      (invoke : ∀ args, ⟨f.name, args⟩ ∈ runs → g.invoke args = f.invoke args) :
      Agree runs (some f) (some g)

theorem Agree.mono {runs fewer : List BodyRun} {f g : Option Function} (h : Agree runs f g)
    (subset : fewer ⊆ runs) : Agree fewer f g := by
  cases h with
  | unknown => exact .unknown
  | known name arity invoke =>
    exact .known name arity fun args member => invoke args (subset member)

mutual

theorem eval_of_agree : (e : Expression) →
    (∀ name, Agree (e.bodyRuns known) (known.get? name) (other.get? name)) →
    e.eval other = e.eval known
  | literal text, _ => rfl
  | binary o left right, agree => by
    rw [bodyRuns] at agree
    have sameLeft := eval_of_agree left fun name =>
      (agree name).mono (List.subset_append_left _ _)
    rw [eval, eval, sameLeft]
    cases hleft : left.eval known with
    | error fault => rfl
    | ok x =>
      have sameRight := eval_of_agree right fun name => (agree name).mono fun run member =>
        List.mem_append_right _ (mem_runsAfter.2 ⟨⟨x, hleft⟩, member⟩)
      rw [sameRight]
  | signed negative operand, agree => by
    rw [eval, eval, eval_of_agree operand agree]
  | group inner, agree => by
    rw [eval, eval, eval_of_agree inner agree]
  | call name args, agree => by
    have own := agree (String.ofList name)
    rw [eval, eval]
    cases found : known.get? (String.ofList name) with
    | none =>
      rw [found] at own
      cases hother : other.get? (String.ofList name) with
      | none => rfl
      | some g =>
        rw [hother] at own
        cases own
    | some f =>
      rw [found] at own
      have sameArgs := evalAll_of_agree args fun other =>
        (agree other).mono fun run member => (mem_bodyRuns_call found).2 (.inl member)
      cases hother : other.get? (String.ofList name) with
      | none =>
        rw [hother] at own
        cases own
      | some g =>
        rw [hother] at own
        cases own with
        | known hname arity invoke =>
          rw [sameArgs]
          cases hvalues : evalAll known args with
          | error fault => rfl
          | ok values =>
            cases accepted : f.arity.accepts values.length with
            | true =>
              exact invoke values ((mem_bodyRuns_call found).2
                (.inr ⟨values, hvalues, accepted, rfl⟩))
            | false =>
              have refused : g.arity.accepts values.length = false := by rw [arity, accepted]
              show g.invoke values = f.invoke values
              rw [Function.invoke_of_refused accepted, Function.invoke_of_refused refused, hname,
                arity]

theorem evalAll_of_agree : (args : List Expression) →
    (∀ name, Agree (bodyRunsOfAll known args) (known.get? name) (other.get? name)) →
    evalAll other args = evalAll known args
  | [], _ => rfl
  | arg :: args, agree => by
    rw [bodyRunsOfAll] at agree
    have sameArg := eval_of_agree arg fun name => (agree name).mono (List.subset_append_left _ _)
    rw [evalAll, evalAll, sameArg]
    cases harg : arg.eval known with
    | error fault => rfl
    | ok x =>
      have sameArgs := evalAll_of_agree args fun name => (agree name).mono fun run member =>
        List.mem_append_right _ (mem_runsAfter.2 ⟨⟨x, harg⟩, member⟩)
      rw [sameArgs]

end

end Expression

namespace Repertoire

open Expression (ofChars lengthLimit Agree)
open Text (strip)

variable {known next other : Repertoire} {text : String}

/-! ## Texts -/

/-- The runs of bodies while a text is evaluated; none if the text is not read. -/
def bodyRuns (functions : Repertoire) (text : String) : List BodyRun :=
  let chars := strip text.toList
  if lengthLimit < chars.length then [] else (ofChars chars).bodyRuns functions

theorem bodyRuns_of_fits (fits : (strip text.toList).length ≤ lengthLimit) :
    known.bodyRuns text = (ofChars (strip text.toList)).bodyRuns known :=
  if_neg (Nat.not_lt.2 fits)

theorem bodyRuns_of_long (functions : Repertoire) (long : lengthLimit < (strip text.toList).length) :
    functions.bodyRuns text = [] :=
  if_pos long

theorem evaluate_of_long (functions : Repertoire) (long : lengthLimit < (strip text.toList).length) :
    functions.evaluate text =
      .error (.expressionTooLong (strip text.toList).length lengthLimit) :=
  if_pos long

theorem due_of_mem_bodyRuns : ∀ run ∈ known.bodyRuns text, Expression.Due known run := by
  by_cases fits : (strip text.toList).length ≤ lengthLimit
  · rw [bodyRuns_of_fits fits]
    exact Expression.due_of_mem_bodyRuns _
  · rw [bodyRuns_of_long known (Nat.lt_of_not_le fits)]
    simp

theorem evaluate_of_failed_run {f : Function} {args : List Float} {fault : Fault}
    (found : known.get? f.name = some f) (failed : f.invoke args = .error fault)
    (ran : ⟨f.name, args⟩ ∈ known.bodyRuns text) : known.evaluate text = .error fault := by
  by_cases fits : (strip text.toList).length ≤ lengthLimit
  · rw [bodyRuns_of_fits fits] at ran
    rw [evaluate_of_fits known fits]
    exact Expression.eval_of_failed_run found failed _ ran
  · rw [bodyRuns_of_long known (Nat.lt_of_not_le fits)] at ran
    cases ran

theorem evaluate_of_agree
    (agree : ∀ name, Agree (known.bodyRuns text) (known.get? name) (other.get? name)) :
    other.evaluate text = known.evaluate text := by
  by_cases fits : (strip text.toList).length ≤ lengthLimit
  · rw [bodyRuns_of_fits fits] at agree
    rw [evaluate_of_fits known fits, evaluate_of_fits other fits]
    exact Expression.eval_of_agree _ agree
  · rw [evaluate_of_long known (Nat.lt_of_not_le fits),
      evaluate_of_long other (Nat.lt_of_not_le fits)]

/-! ## Functions before their insertion -/

theorem Built.insertAll {added : List Function} (built : known.Built)
    (inserted : known.insertAll added = .ok next) : next.Built := by
  induction added generalizing known with
  | nil =>
    cases inserted
    exact built
  | cons f rest ih =>
    rw [Repertoire.insertAll, List.foldlM_cons] at inserted
    obtain ⟨between, first, later⟩ := bind_eq_ok inserted
    exact ih (.insert built first) later

theorem get?_of_insertAll {added : List Function} (inserted : empty.insertAll added = .ok known)
    {f : Function} (member : f ∈ added) : known.get? f.name = some f.guard := by
  have stored : f.guard ∈ known.functions := by
    rw [functions_of_insertAll inserted]
    exact List.mem_append_right _ (List.mem_map_of_mem member)
  exact (Built.insertAll .empty inserted).get?_of_mem stored

/-- The same name and arity, and a body that answers the same where it ran. -/
structure AlikeOn (runs : List BodyRun) (f g : Function) : Prop where
  name : g.name = f.name
  arity : g.arity = f.arity
  body : ∀ args, ⟨f.name, args⟩ ∈ runs → g.body args = f.body args

theorem agree_guards {runs : List BodyRun} {added others : List Function}
    (alike : List.Forall₂ (AlikeOn runs) added others) (name : String) :
    Agree runs (get? ⟨added.map Function.guard⟩ name) (get? ⟨others.map Function.guard⟩ name) := by
  induction alike with
  | nil => exact .unknown
  | @cons f g rest more first _ ih =>
    obtain ⟨hname, harity, hbody⟩ := first
    by_cases here : f.name = name
    · have found : ∀ {h : Function} {tail : List Function}, h.name = name →
          get? ⟨(h :: tail).map Function.guard⟩ name = some h.guard := by
        intro h tail same
        simp [get?, same]
      rw [found here, found (hname.trans here)]
      refine .known hname harity fun args ran => ?_
      rw [Function.invoke_guard, Function.invoke_guard]
      simp [Function.invoke, hname, harity, hbody args ran]
    · have skipped : ∀ {h : Function} {tail : List Function}, h.name ≠ name →
          get? ⟨(h :: tail).map Function.guard⟩ name = get? ⟨tail.map Function.guard⟩ name := by
        intro h tail different
        simp [get?, different]
      rw [skipped here, skipped (by rwa [hname])]
      exact ih

theorem agree_of_insertAll {runs : List BodyRun} {added others : List Function}
    (inserted : empty.insertAll added = .ok known)
    (insertedOther : empty.insertAll others = .ok other)
    (alike : List.Forall₂ (AlikeOn runs) added others) (name : String) :
    Agree runs (known.get? name) (other.get? name) := by
  have hknown : known = ⟨added.map Function.guard⟩ :=
    congrArg Repertoire.mk (functions_of_insertAll inserted)
  have hother : other = ⟨others.map Function.guard⟩ :=
    congrArg Repertoire.mk (functions_of_insertAll insertedOther)
  rw [hknown, hother]
  exact agree_guards alike name

end Repertoire
end Reckoner
