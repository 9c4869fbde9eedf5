import Reckoner.Proofs.BodyRuns
import Reckoner.Proofs.Filling

/-! # Guards

A function gets its guard when it is stored, and it may have one already: it was taken out of another
registry, or it comes from a plugin, which checks its calls itself.  A guard says what a call comes to
(`guarded_body`), and a second one finds nothing left to do (`guard_guard`,
`Plugin.Runnable.guard_toFunction`).  So what was registered once can be registered anywhere else
and answers as before (`functions_offerAll`).
-/

namespace Reckoner

namespace Function

/-- The function with another body. -/
def withBody (f : Function) (body : List Float → Outcome Fault Float) : Function :=
  { f with body := body }

/-- What a call comes to under a guard: the arity is asked first, and only if it takes the arguments
does it matter how the body ends. -/
structure Guarded (f : Function) (args : List Float) (outcome : Outcome Fault Float) : Prop where
  refused : f.arity.accepts args.length = false →
    outcome = .failed (.arityMismatch f.name f.arity args.length)
  returned : f.arity.accepts args.length = true →
    ∀ value, f.body args = .returned value → outcome = .returned value
  failed : f.arity.accepts args.length = true →
    ∀ fault, f.body args = .failed fault → outcome = .failed fault
  crashed : f.arity.accepts args.length = true → ∀ note, f.body args = .crashed note →
    outcome = .failed (.invocationFailure f.name ("panicked: " ++ note.getD "unknown panic"))

theorem guarded_body (f : Function) (args : List Float) : Guarded f args (f.guard.body args) := by
  have run : f.guard.body args = .ofExcept (f.invoke args) := rfl
  constructor
  · intro refused
    rw [run, invoke_of_refused refused]
    rfl
  · intro accepted value returned
    simp [run, invoke, accepted, returned, Outcome.ofExcept]
  · intro accepted fault failed
    simp [run, invoke, accepted, failed, Outcome.ofExcept]
  · intro accepted note crashed
    simp [run, invoke, accepted, crashed, Outcome.ofExcept, crashFault, Outcome.noteText]

/-- A call that the arity refuses does not depend on the body. -/
theorem guard_body_of_refused {f : Function} {args : List Float}
    (refused : f.arity.accepts args.length = false) (other : List Float → Outcome Fault Float) :
    (f.withBody other).guard.body args = f.guard.body args :=
  (guarded_body (f.withBody other) args).refused refused |>.trans
    ((guarded_body f args).refused refused).symm

/-- A guarded function gains nothing by another guard. -/
theorem guard_guard (f : Function) : f.guard.guard = f.guard := by
  have body : f.guard.guard.body = f.guard.body := by
    funext args
    exact congrArg Outcome.ofExcept (invoke_guard f args)
  exact congrArg f.withBody body

end Function

namespace Plugin

/-- The operation is the first one named `run`. -/
def FirstRun (plugin : Plugin) (run : Operation) : Prop :=
  run.name = "run" ∧ ∃ before after, plugin.operations = before ++ run :: after ∧
    ∀ other ∈ before, other.name ≠ "run"

theorem firstRun_of_run? {plugin : Plugin} {run : Operation} (found : plugin.run? = some run) :
    plugin.FirstRun run := by
  obtain ⟨named, before, after, split, others⟩ := List.find?_eq_some_iff_append.1 found
  refine ⟨of_decide_eq_true named, before, after, split, ?_⟩
  intro other member
  exact of_decide_eq_false (Bool.not_eq_true' _ ▸ others other member)

namespace Runnable

/-- What a call of a plugin's function comes to: one argument for each parameter of the operation,
and then whatever number its answer holds. -/
structure Answers (name : String) (run : Operation) (args : List Float)
    (outcome : Outcome Fault Float) : Prop where
  refused : args.length ≠ run.params.length →
    outcome = .failed (.arityMismatch name (.exactly run.params.length) args.length)
  number : args.length = run.params.length →
    ∀ x, run.body args = .returned (.number x) → outcome = .returned x
  integer : args.length = run.params.length →
    ∀ i, run.body args = .returned (.integer i) → outcome = .returned (Binary64.ofInt i.toInt)
  other : args.length = run.params.length → ∀ value, run.body args = .returned value →
    (∀ x, value ≠ .number x) → (∀ i, value ≠ .integer i) →
      outcome = .failed (.invocationFailure name ("expected a number, got " ++ value.typeName))
  failed : args.length = run.params.length → ∀ reason, run.body args = .failed reason →
    outcome = .failed (.invocationFailure name reason)
  crashed : args.length = run.params.length → ∀ note, run.body args = .crashed note →
    outcome = .failed (.invocationFailure name ("panicked: " ++ note.getD "unknown panic"))

variable {plugin : Plugin} {runnable : Runnable}

theorem firstRun_of_ofPlugin (made : ofPlugin plugin = .ok runnable) :
    runnable.info = plugin.info ∧ plugin.FirstRun runnable.run := by
  rw [ofPlugin] at made
  split at made
  · next run found =>
    cases made
    exact ⟨rfl, firstRun_of_run? found⟩
  · cases made

theorem answers_body (runnable : Runnable) (args : List Float) :
    Answers runnable.info.name runnable.run args (runnable.toFunction.body args) := by
  have run : runnable.toFunction.body args = .ofExcept (runnable.invoke args) := rfl
  constructor
  · intro refused
    simp [run, invoke, arity, refused, Outcome.ofExcept]
  · intro accepted x returned
    simp [run, invoke, arity, accepted, returned, Outcome.ofExcept, Value.toNumber, Value.asNumber?]
  · intro accepted i returned
    simp [run, invoke, arity, accepted, returned, Outcome.ofExcept, Value.toNumber, Value.asNumber?]
  · intro accepted value returned notNumber notInteger
    cases value with
    | number x => exact absurd rfl (notNumber x)
    | integer i => exact absurd rfl (notInteger i)
    | _ => simp [run, invoke, arity, accepted, returned, Outcome.ofExcept, Value.toNumber,
        Value.asNumber?]
  · intro accepted reason failed
    simp [run, invoke, arity, accepted, failed, Outcome.ofExcept]
  · intro accepted note crashed
    simp [run, invoke, arity, accepted, crashed, Outcome.ofExcept, Function.crashFault,
      Outcome.noteText]

/-- The function of a plugin checks what a guard would check. -/
theorem guard_toFunction (runnable : Runnable) : runnable.toFunction.guard = runnable.toFunction := by
  have body : runnable.toFunction.guard.body = runnable.toFunction.body := by
    funext args
    exact congrArg Outcome.ofExcept (invoke_toFunction runnable args)
  exact congrArg runnable.toFunction.withBody body

end Runnable
end Plugin

/-! ## What is taken out of a registry and put into another one -/

namespace Repertoire

theorem Built.guard_of_mem {known : Repertoire} (built : known.Built) :
    ∀ f ∈ known.functions, f.guard = f := by
  induction built with
  | empty =>
    intro f member
    cases member
  | @insert known next added earlier inserted ih =>
    obtain ⟨-, -, rfl⟩ := insert_eq_ok_iff.1 inserted
    intro f member
    obtain member | member := List.mem_append.1 member
    · exact ih f member
    · obtain rfl : f = added.guard := by simpa using member
      exact added.guard_guard

/-- What comes of the offer of a function that could be called. -/
def outcomeOf (known : Repertoire) (f : Function) : Except Fault Unit :=
  if f.name ∈ known.names then .error (.duplicateName f.name) else .ok ()

/-- The functions whose names are free. -/
def unheld (known : Repertoire) (offered : List Function) : List Function :=
  offered.filter fun f => f.name ∉ known.names

theorem offer_of_taken {known : Repertoire} {f : Function}
    (checked : Function.checkName f.name = .ok ()) (taken : f.name ∈ known.names) :
    known.offer f = (known, .error (.duplicateName f.name)) := by
  rw [offer, insert_of_taken checked taken]

theorem offer_of_fresh {known : Repertoire} {f : Function}
    (checked : Function.checkName f.name = .ok ()) (fresh : f.name ∉ known.names) :
    known.offer f = (⟨known.functions ++ [f.guard]⟩, .ok ()) := by
  rw [offer, insert_eq_ok_iff.2 ⟨checked, fresh, rfl⟩]

/-- Stored functions offered elsewhere are stored again as they are, unless their names are taken
there. -/
theorem offerAll_built {source : Repertoire} (built : source.Built) (known : Repertoire) :
    known.offerAll source.functions =
      (⟨known.functions ++ known.unheld source.functions⟩,
        source.functions.map known.outcomeOf) := by
  have checked := built.checked
  have guarded := built.guard_of_mem
  have distinct := built.nodup
  rw [names] at distinct
  clear built
  obtain ⟨offered⟩ := source
  induction offered generalizing known with
  | nil => simp [offerAll, unheld]
  | cons f rest ih =>
    obtain ⟨apart, distinctRest⟩ := List.nodup_cons.1 distinct
    have checkedRest : ∀ g ∈ rest, Function.checkName g.name = .ok () :=
      fun g member => checked g (List.mem_cons_of_mem _ member)
    have guardedRest : ∀ g ∈ rest, g.guard = g :=
      fun g member => guarded g (List.mem_cons_of_mem _ member)
    have checkedFirst := checked f (List.mem_cons_self ..)
    have ihRest := fun known => ih known checkedRest guardedRest distinctRest
    rw [offerAll_cons]
    by_cases taken : f.name ∈ known.names
    · rw [offer_of_taken checkedFirst taken, ihRest]
      simp [unheld, outcomeOf, taken]
    · rw [offer_of_fresh checkedFirst taken, ihRest, guarded f (List.mem_cons_self ..)]
      -- No other function has the name that is held from now on.
      have held : ∀ g ∈ rest, g.name ∈ names ⟨known.functions ++ [f]⟩ ↔ g.name ∈ known.names := by
        intro g member
        have other : g.name ≠ f.name := fun same => apart (same ▸ List.mem_map_of_mem member)
        simp [names, other]
      have sameUnheld : unheld ⟨known.functions ++ [f]⟩ rest = known.unheld rest :=
        List.filter_congr fun g member => by rw [decide_eq_decide, held g member]
      have sameOutcomes : rest.map (outcomeOf ⟨known.functions ++ [f]⟩) =
          rest.map known.outcomeOf :=
        List.map_congr_left fun g member => by simp only [outcomeOf, held g member]
      rw [sameUnheld, sameOutcomes]
      simp [unheld, outcomeOf, taken]

theorem get?_append_unheld {known source next : Repertoire}
    (grown : next.functions = known.functions ++ known.unheld source.functions) (name : String) :
    next.get? name = if name ∈ known.names then known.get? name else source.get? name := by
  split
  · next held =>
    have found : (known.get? name).isSome = true := contains_iff.2 held
    obtain ⟨f, hfound⟩ := Option.isSome_iff_exists.1 found
    rw [hfound, get?_of_prefix ⟨_, grown.symm⟩ hfound]
  · next free =>
    have missing : known.functions.find? (fun f => f.name = name) = none :=
      Option.not_isSome_iff_eq_none.1 fun found => free (contains_iff.1 found)
    rw [get?, grown, List.find?_append, missing, Option.none_or, unheld, List.find?_filter, get?]
    -- A function of a free name is not among those left out.
    congr 1
    funext f
    by_cases same : f.name = name
    · simp [same, free]
    · simp [same]

end Repertoire

/-- A function whose body crashes. -/
def Function.boom : Function where
  name := "boom"
  body := fun _ => .crashed (some "kaboom")

/-- An operation that answers with a truth value. -/
def Plugin.Runnable.wordy : Plugin.Runnable :=
  ⟨⟨"wordy", "wordy(", ""⟩, ⟨"run", ["x"], fun _ => .returned (.truth true)⟩⟩

/-- The plugin lists another operation in front. -/
def Plugin.wordy : Plugin :=
  ⟨Runnable.wordy.info, [⟨"describe", [], fun _ => .crashed none⟩, Runnable.wordy.run]⟩

/-- A candidate for each of the two. -/
def wordyArea : Catalogue :=
  ⟨[⟨"Boom", .direct (.returned .boom)⟩, ⟨"Wordy", .annotated (.returned .wordy)⟩]⟩

namespace Registry

open Plugin (Runnable)

theorem run_registrations_built {source : Repertoire} (built : source.Built) (other : Registry) :
    let copied := (⟨other, []⟩ : Watched).run (registrations source.functions)
    copied.1.published = ⟨other.functions.functions ++ other.functions.unheld source.functions⟩ ∧
      copied.2 = source.functions.map fun f => .registered (other.functions.outcomeOf f) := by
  intro copied
  obtain ⟨published, replies⟩ := run_registrations ⟨other, []⟩ source.functions
  have offered := Repertoire.offerAll_built built other.functions
  refine ⟨published.trans (congrArg Prod.fst offered), replies.trans ?_⟩
  exact (congrArg (fun offer => offer.2.map Reply.registered) offered).trans (List.map_map ..)

/-- A guard asks the arity before it runs a body, which no refused call depends on, and turns a crash
into a fault that names the function; all else it passes on.  A second guard changes nothing, and
neither does a first one around the function of a plugin.  Therefore the functions that a registry
lists can be registered with any other one: it takes those whose names are free there, as they are,
and if it held nothing, it answers everything as the first one does. -/
theorem guard_transparent :
    (∀ (f : Function) (args : List Float), Function.Guarded f args (f.guard.body args) ∧
      (f.arity.accepts args.length = false → ∀ body : List Float → Outcome Fault Float,
        (f.withBody body).guard.body args = f.guard.body args)) ∧
    (∀ f : Function, f.guard.guard = f.guard ∧ f.guard.name = f.name ∧
      f.guard.insertText = f.insertText ∧ f.guard.description = f.description ∧
      f.guard.arity = f.arity ∧ ∀ args, f.guard.body args = .ofExcept (f.invoke args) ∧
        f.guard.invoke args = f.invoke args) ∧
    (∀ (plugin : Plugin) (runnable : Runnable), Runnable.ofPlugin plugin = .ok runnable →
      plugin.FirstRun runnable.run ∧ ∀ args,
        runnable.toFunction.guard.body args = runnable.toFunction.body args ∧
        Runnable.Answers plugin.info.name runnable.run args (runnable.toFunction.body args)) ∧
    ∀ (catalogue : Catalogue) (exclusions : Exclusions) (steps : List Step) (other : Registry),
      let source := ((create catalogue exclusions).run steps).functions
      let copied := (⟨other, []⟩ : Watched).run (registrations source.functions)
      copied.2 = source.functions.map (fun f => .registered (other.functions.outcomeOf f)) ∧
        (∀ name, copied.1.published.get? name =
          if name ∈ other.functions.names then other.functions.get? name else source.get? name) ∧
        (other.functions = .empty → copied.1.published = source ∧
          ∀ question, copied.1.published.answer question = source.answer question) := by
  refine ⟨?_, ?_, ?_, ?_⟩
  · intro f args
    exact ⟨f.guarded_body args, fun refused body => Function.guard_body_of_refused refused body⟩
  · intro f
    exact ⟨f.guard_guard, rfl, rfl, rfl, rfl, fun args => ⟨rfl, Function.invoke_guard f args⟩⟩
  · intro plugin runnable made
    obtain ⟨info, first⟩ := Runnable.firstRun_of_ofPlugin made
    refine ⟨first, fun args => ⟨?_, info ▸ runnable.answers_body args⟩⟩
    rw [runnable.guard_toFunction]
  · intro catalogue exclusions steps other source copied
    have built : source.Built := run_built .empty steps
    obtain ⟨published, replies⟩ := run_registrations_built built other
    have grown : copied.1.published.functions =
        other.functions.functions ++ other.functions.unheld source.functions :=
      congrArg Repertoire.functions published
    refine ⟨replies, Repertoire.get?_append_unheld grown, ?_⟩
    intro nothing
    have same : copied.1.published = source := by
      rw [show copied.1.published = _ from published, nothing]
      simp [Repertoire.empty, Repertoire.unheld, Repertoire.names]
    exact ⟨same, fun question => by rw [same]⟩

/-- A body that crashes and a plugin whose answer is no number, called where they were copied to. -/
theorem guard_transparent_copied :
    let source := ((create wordyArea {}).run [.discover]).functions
    let copied := (watch .empty {}).run (registrations source.functions)
    Function.boom.arity.accepts 0 = false ∧
      (Function.boom.withBody fun _ => .returned 0).guard.body [] = Function.boom.guard.body [] ∧
      Runnable.ofPlugin .wordy = .ok .wordy ∧ Plugin.wordy.FirstRun Runnable.wordy.run ∧
      (watch .empty {}).published = .empty ∧
      copied.2 = [.registered (.ok ()), .registered (.ok ())] ∧
      copied.1.published.answer (.invoke "boom" [0]) =
        .result (some (.error (.invocationFailure "boom" "panicked: kaboom"))) ∧
      copied.1.published.answer (.invoke "wordy" [0]) =
        .result (some (.error (.invocationFailure "wordy" "expected a number, got Bool"))) ∧
      copied.1.published.answer (.invoke "wordy" []) =
        .result (some (.error (.arityMismatch "wordy" (.exactly 1) 0))) := by
  intro source copied
  obtain ⟨guards, -, plugins, copies⟩ := guard_transparent
  have refused : Function.boom.arity.accepts 0 = false := rfl
  have made : Runnable.ofPlugin .wordy = .ok .wordy := rfl
  have listed : source.functions = [Function.boom.guard, Runnable.wordy.toFunction.guard] := rfl
  obtain ⟨replies, -, alike⟩ := copies wordyArea {} [.discover] (create .empty {})
  have answers := (alike rfl).2
  refine ⟨refused, (guards .boom []).2 refused _, made, (plugins .wordy _ made).1, rfl, ?_, ?_, ?_,
    ?_⟩
  · exact replies.trans (congrArg _ listed)
  · exact (answers (.invoke "boom" [0])).trans rfl
  · exact (answers (.invoke "wordy" [0])).trans rfl
  · exact (answers (.invoke "wordy" [])).trans rfl

end Registry
end Reckoner
