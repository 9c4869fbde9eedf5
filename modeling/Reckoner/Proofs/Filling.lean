import Reckoner.Proofs.Generations
import Reckoner.Proofs.Reports

/-! # Filling a set of functions

Functions get into a set by insertion, by registration and as candidates of a pass.  Each way asks
the same questions of every function in turn (`offer`), whatever became of the functions before it,
so all three end with the same functions, and what one way answers tells what the others do
(`filling_agrees`).
-/

namespace Reckoner

namespace Repertoire

/-- The set after an insertion, and its outcome; a function that is refused leaves the set alone. -/
def offer (known : Repertoire) (f : Function) : Repertoire × Except Fault Unit :=
  match known.insert f with
  | .ok next => (next, .ok ())
  | .error fault => (known, .error fault)

/-- Insertions one after the other, refused or not. -/
def offerAll (known : Repertoire) : List Function → Repertoire × List (Except Fault Unit)
  | [] => (known, [])
  | f :: rest =>
    let (next, outcome) := known.offer f
    let (last, outcomes) := next.offerAll rest
    (last, outcome :: outcomes)

@[simp] theorem offerAll_cons (known : Repertoire) (f : Function) (rest : List Function) :
    known.offerAll (f :: rest) =
      (((known.offer f).1.offerAll rest).1, (known.offer f).2 :: ((known.offer f).1.offerAll rest).2) :=
  rfl

theorem length_offerAll (known : Repertoire) (functions : List Function) :
    (known.offerAll functions).2.length = functions.length := by
  induction functions generalizing known with
  | nil => rfl
  | cons f rest ih => simp [ih]

/-- An insertion succeeds, or the name is unusable, or it is taken. -/
theorem insert_cases (known : Repertoire) (f : Function) :
    (∃ next, known.insert f = .ok next) ∨
      (∃ candidate reason, known.insert f = .error (.configuration candidate reason)) ∨
      known.insert f = .error (.duplicateName f.name) := by
  cases named : Function.checkName f.name with
  | error fault =>
    have kind := Function.kind_of_checkName named
    cases fault with
    | configuration candidate reason =>
      exact .inr (.inl ⟨candidate, reason, insert_of_misnamed named⟩)
    | _ => cases kind
  | ok checked =>
    by_cases taken : f.name ∈ known.names
    · exact .inr (.inr (insert_of_taken named taken))
    · exact .inl ⟨_, insert_eq_ok_iff.2 ⟨named, taken, rfl⟩⟩

end Repertoire

/-- A candidate that builds the function. -/
def Candidate.offering (label : String) (f : Function) : Candidate :=
  ⟨label, .direct (.returned f)⟩

namespace Discovery

open Repertoire (insert_cases)

/-- What the outcome of an insertion tells about the verdict on a candidate that builds the
function. -/
structure Corresponds (label name : String) (outcome : Except Fault Unit) (verdict : Verdict) :
    Prop where
  registered_iff : outcome = .ok () ↔ verdict = .registered name
  duplicate_iff : outcome = .error (.duplicateName name) ↔ verdict = .duplicate name
  failed_iff : ∀ failure, verdict = .failed failure ↔
    ∃ fault, outcome = .error fault ∧ fault ≠ .duplicateName name ∧
      failure.candidate = label ∧ failure.kind = fault.kind ∧ failure.message = fault.message
  never_disabled : ∀ other, verdict ≠ .disabled other

theorem Failure.eq_ofFault_iff {failure : Failure} {label : String} {fault : Fault} :
    failure = .ofFault label fault ↔ failure.candidate = label ∧ failure.kind = fault.kind ∧
      failure.message = fault.message := by
  cases failure
  simp [ofFault]

/-- A pass without exclusions does to a candidate what an insertion does to its function. -/
theorem judge_offering (known : Repertoire) (label : String) (f : Function) :
    (judge {} known (.offering label f)).1 = (known.offer f).1 ∧
      Corresponds label f.name (known.offer f).2 (judge {} known (.offering label f)).2 := by
  have wanted : ({} : Exclusions).excludes f.name = false := rfl
  have built : (Candidate.offering label f).instantiate = .ok f := rfl
  -- The pass hands the built function to the same insertion and only sorts what comes back.
  obtain ⟨next, inserted⟩ | ⟨candidate, reason, refused⟩ | taken := insert_cases known f
  · simp only [judge, built, wanted, inserted, Repertoire.offer]
    exact ⟨rfl, by simp, by simp, by simp, by simp⟩
  · simp only [judge, built, wanted, refused, Repertoire.offer]
    refine ⟨rfl, by simp, by simp, ?_, by simp⟩
    intro failure
    constructor
    · intro same
      cases same
      exact ⟨_, rfl, by simp, rfl, rfl, rfl⟩
    · rintro ⟨fault, same, -, described⟩
      cases same
      rw [Failure.eq_ofFault_iff.2 described]
      rfl
  · simp only [judge, built, wanted, taken, Repertoire.offer]
    exact ⟨rfl, by simp, by simp, by simp, by simp⟩

variable {offers : List (String × Function)}

theorem scan_offerings (known : Repertoire) (offers : List (String × Function)) :
    (scan {} known (offers.map fun offer => .offering offer.1 offer.2)).1 =
      (known.offerAll (offers.map Prod.snd)).1 := by
  induction offers generalizing known with
  | nil => rfl
  | cons offer rest ih =>
    simp only [List.map_cons, scan, Repertoire.offerAll_cons]
    rw [ih, (judge_offering known offer.1 offer.2).1]

theorem corresponds_scan (known : Repertoire) {i : Nat} {label : String} {f : Function}
    {outcome : Except Fault Unit} {verdict : Verdict} (place : offers[i]? = some (label, f))
    (came : (known.offerAll (offers.map Prod.snd)).2[i]? = some outcome)
    (placed : (scan {} known (offers.map fun offer => .offering offer.1 offer.2)).2[i]? =
      some verdict) : Corresponds label f.name outcome verdict := by
  -- What became of the functions in front is in the set with which both ways go on.
  induction offers generalizing known i with
  | nil => simp at place
  | cons offer rest ih =>
    obtain ⟨same, corresponds⟩ := judge_offering known offer.1 offer.2
    simp only [List.map_cons, scan, Repertoire.offerAll_cons] at came placed
    cases i with
    | zero =>
      simp only [List.getElem?_cons_zero, Option.some.injEq] at place came placed
      subst place came placed
      exact corresponds
    | succ i =>
      simp only [List.getElem?_cons_succ] at place came placed
      rw [same] at placed
      exact ih _ place came placed

end Discovery

namespace Registry

open Discovery (Corresponds Verdict)

/-- Registrations one after the other, as calls. -/
def registrations (functions : List Function) : List Call :=
  functions.map fun f => .change (.register f)

/-- A registration does to the published functions what an insertion does to a set. -/
theorem call_register (watched : Watched) (f : Function) :
    (watched.call (.change (.register f))).1.published = (watched.published.offer f).1 ∧
      (watched.call (.change (.register f))).2 = .registered (watched.published.offer f).2 := by
  simp only [Watched.call, replyTo, step, register, Repertoire.offer, Watched.published]
  cases watched.registry.functions.insert f with
  | error fault => exact ⟨rfl, rfl⟩
  | ok next => exact ⟨rfl, rfl⟩

theorem run_registrations (watched : Watched) (functions : List Function) :
    (watched.run (registrations functions)).1.published =
        (watched.published.offerAll functions).1 ∧
      (watched.run (registrations functions)).2 =
        (watched.published.offerAll functions).2.map .registered := by
  induction functions generalizing watched with
  | nil => exact ⟨rfl, rfl⟩
  | cons f rest ih =>
    obtain ⟨same, reply⟩ := call_register watched f
    obtain ⟨sameRest, replies⟩ := ih (watched.call (.change (.register f))).1
    rw [same] at sameRest replies
    rw [registrations] at sameRest replies ⊢
    simp only [List.map_cons, Watched.run_cons, Repertoire.offerAll_cons]
    exact ⟨sameRest, by rw [replies, reply]⟩

/-- Whether functions are inserted into an empty set, registered with a registry that has published
nothing, or built by the candidates of its first discovery or reload: the functions are the same
afterwards, and so is every answer.  What the three ways say about a single function corresponds. -/
theorem filling_agrees (catalogue : Catalogue) (exclusions : Exclusions)
    (offers : List (String × Function)) :
    let functions := offers.map Prod.snd
    let inserted := Repertoire.empty.offerAll functions
    let registered := (watch catalogue exclusions).run (registrations functions)
    let area := create ⟨offers.map fun offer => .offering offer.1 offer.2⟩ {}
    let verdicts := area.verdictsFrom .empty
    (registered.1.published = inserted.1 ∧ area.discover.1.functions = inserted.1 ∧
        area.reload.1.functions = inserted.1) ∧
      (∀ question, registered.1.published.answer question = inserted.1.answer question ∧
        area.discover.1.functions.answer question = inserted.1.answer question ∧
        area.reload.1.functions.answer question = inserted.1.answer question) ∧
      registered.2 = inserted.2.map .registered ∧
      area.discover.2 = .ofVerdicts verdicts ∧ area.reload.2 = .ofVerdicts verdicts ∧
      inserted.2.length = offers.length ∧ verdicts.length = offers.length ∧
      ∀ (i : Nat) (label : String) (f : Function) (outcome : Except Fault Unit)
        (verdict : Verdict), offers[i]? = some (label, f) → inserted.2[i]? = some outcome →
          verdicts[i]? = some verdict → Corresponds label f.name outcome verdict := by
  intro functions inserted registered area verdicts
  obtain ⟨registers, replies⟩ := run_registrations (watch catalogue exclusions) functions
  have discovers : area.discover.1.functions = inserted.1 :=
    Discovery.scan_offerings .empty offers
  have reloads : area.reload.1.functions = inserted.1 := discovers
  have lengths : inserted.2.length = offers.length := by
    rw [Repertoire.length_offerAll, List.length_map]
  have judged : verdicts.length = offers.length := by
    have perCandidate := Discovery.length_scan {} .empty
      (offers.map fun offer => Candidate.offering offer.1 offer.2)
    rwa [List.length_map] at perCandidate
  refine ⟨⟨registers, discovers, reloads⟩, ?_, replies, rfl, rfl, lengths, judged, ?_⟩
  · intro question
    rw [discovers, reloads]
    exact ⟨by rw [registers]; rfl, rfl, rfl⟩
  · intro i label f outcome verdict place came placed
    exact Discovery.corresponds_scan .empty place came placed

/-- A name that is refused once is refused again, and a duplicate of a duplicate is one too. -/
theorem filling_agrees_refused :
    let offers : List (String × Function) := [("a", .counter "f"), ("b", .counter "g h"),
      ("c", .refusing "f"), ("d", .refusing "g h"), ("e", .counter "f")]
    let functions := offers.map Prod.snd
    let inserted := Repertoire.empty.offerAll functions
    let area := create ⟨offers.map fun offer => .offering offer.1 offer.2⟩ {}
    let spaced : Fault := .configuration "g h"
      "function name must not contain whitespace, parentheses or commas"
    inserted.2 = [.ok (), .error spaced, .error (.duplicateName "f"), .error spaced,
        .error (.duplicateName "f")] ∧
      area.reload.1.functions.names = ["f"] ∧
      Corresponds "d" "g h" (.error spaced) (.failed (.ofFault "d" spaced)) ∧
      Corresponds "e" "f" (.error (.duplicateName "f")) (.duplicate "f") := by
  intro offers functions inserted area spaced
  obtain ⟨⟨-, -, reloads⟩, -, -, -, -, -, -, corresponds⟩ := filling_agrees .empty {} offers
  refine ⟨rfl, ?_, ?_, ?_⟩
  · rw [reloads]
    rfl
  · exact corresponds 3 "d" (.refusing "g h") _ _ rfl rfl rfl
  · exact corresponds 4 "e" (.counter "f") _ _ rfl rfl rfl

end Registry
end Reckoner
