import Reckoner.Proofs.Lookups
import Reckoner.Proofs.Passes
import Reckoner.Registry

/-! # Runs of a registry

A run is any sequence of changes to the catalogue, passes, reloads and registrations by hand.  Each
way of publishing builds its functions by insertions (`step_built`), and all but the reload put the
new ones behind the old ones (`step_grows`).  Between two reloads the published list therefore only
grows at its end, and a name keeps the function that it was given first (`published_invariant`).
-/

namespace Reckoner

/-- The same candidates in the same places, with other things to build. -/
def Catalogue.rebuilding (catalogue : Catalogue) (recipe : Nat → Candidate.Recipe) : Catalogue :=
  ⟨catalogue.candidates.mapIdx fun i candidate => { candidate with recipe := recipe i }⟩

namespace Registry

/-- What can happen to a registry. -/
inductive Step where
  | install (candidate : Candidate)
  | uninstall (label : String)
  /-- Candidates need not build the same thing at every pass. -/
  | vary (recipe : Nat → Candidate.Recipe)
  | discover
  | reload
  | register (f : Function)

/-- The registry after a step; a refused registration changes nothing. -/
def step (registry : Registry) : Step → Registry
  | .install candidate => registry.install candidate
  | .uninstall label => registry.uninstall label
  | .vary recipe => { registry with catalogue := registry.catalogue.rebuilding recipe }
  | .discover => registry.discover.1
  | .reload => registry.reload.1
  | .register f =>
    match registry.register f with
    | .ok next => next
    | .error _ => registry

def run (registry : Registry) (steps : List Step) : Registry :=
  steps.foldl step registry

variable {registry : Registry}

@[simp] theorem run_nil (registry : Registry) : registry.run [] = registry := rfl

@[simp] theorem run_cons (registry : Registry) (first : Step) (steps : List Step) :
    registry.run (first :: steps) = (registry.step first).run steps := rfl

theorem run_append (registry : Registry) (steps more : List Step) :
    registry.run (steps ++ more) = (registry.run steps).run more :=
  List.foldl_append

/-- A registration publishes one more function, or it is refused. -/
theorem step_register_cases (registry : Registry) (f : Function) :
    registry.step (.register f) = registry ∨
      ∃ next, registry.functions.insert f = .ok next ∧
        registry.step (.register f) = registry.publish next := by
  rw [step, register]
  cases inserted : registry.functions.insert f with
  | error fault => exact .inl rfl
  | ok next => exact .inr ⟨next, rfl, rfl⟩

theorem step_register_frame (registry : Registry) (f : Function) :
    (registry.step (.register f)).catalogue = registry.catalogue ∧
      (registry.step (.register f)).exclusions = registry.exclusions := by
  cases registry.step_register_cases f with
  | inl refused =>
    rw [refused]
    exact ⟨rfl, rfl⟩
  | inr published =>
    obtain ⟨next, -, hstep⟩ := published
    rw [hstep]
    exact ⟨rfl, rfl⟩

/-! ## What a step keeps -/

theorem step_built (built : registry.functions.Built) (step : Step) :
    (registry.step step).functions.Built := by
  cases step with
  | install _ | uninstall _ | vary _ => exact built
  | discover => exact Discovery.scan_built _ built _
  -- A reload builds anew and needs nothing of what was published.
  | reload => exact Discovery.scan_built _ .empty _
  | register f =>
    cases registry.step_register_cases f with
    | inl refused => rwa [refused]
    | inr published =>
      obtain ⟨next, inserted, hstep⟩ := published
      rw [hstep]
      exact .insert built inserted

theorem step_grows {step : Step} (kept : step ≠ .reload) :
    registry.functions.functions <+: (registry.step step).functions.functions := by
  cases step with
  | install _ | uninstall _ | vary _ => exact List.prefix_rfl
  | discover => exact Discovery.scan_prefix _ _ _
  | reload => exact absurd rfl kept
  | register f =>
    cases registry.step_register_cases f with
    | inl refused => exact ⟨[], by rw [refused, List.append_nil]⟩
    | inr published =>
      obtain ⟨next, inserted, hstep⟩ := published
      obtain ⟨-, -, rfl⟩ := Repertoire.insert_eq_ok_iff.1 inserted
      rw [hstep]
      exact List.prefix_append _ _

theorem step_exclusions (registry : Registry) (step : Step) :
    (registry.step step).exclusions = registry.exclusions := by
  cases step with
  | register f => exact (registry.step_register_frame f).2
  | _ => rfl

/-! ## What a run keeps -/

theorem run_built (built : registry.functions.Built) (steps : List Step) :
    (registry.run steps).functions.Built := by
  induction steps generalizing registry with
  | nil => exact built
  | cons first rest ih => exact ih (step_built built first)

theorem run_grows (registry : Registry) {steps : List Step} (kept : .reload ∉ steps) :
    registry.functions.functions <+: (registry.run steps).functions.functions := by
  induction steps generalizing registry with
  | nil => exact List.prefix_rfl
  | cons first rest ih =>
    rw [List.mem_cons, not_or] at kept
    exact (step_grows (Ne.symm kept.1)).trans (ih _ kept.2)

theorem run_exclusions (registry : Registry) (steps : List Step) :
    (registry.run steps).exclusions = registry.exclusions := by
  induction steps generalizing registry with
  | nil => rfl
  | cons first rest ih => rw [run_cons, ih, step_exclusions]

/-- At every moment of a run the published names are distinct and can stand in front of a
parenthesis, and until the next reload what is published stays where it is. -/
theorem published_invariant (catalogue : Catalogue) (exclusions : Exclusions)
    (steps : List Step) :
    let registry := (create catalogue exclusions).run steps
    registry.functions.names.Nodup ∧
      (∀ name ∈ registry.functions.names, name.toList ≠ [] ∧
        ∀ c ∈ name.toList, Text.isBlank c = false ∧ c ≠ '(' ∧ c ≠ ')' ∧ c ≠ ',') ∧
      ∀ more : List Step, .reload ∉ more →
        registry.functions.functions <+: (registry.run more).functions.functions ∧
          ∀ name f, registry.functions.get? name = some f →
            (registry.run more).functions.get? name = some f := by
  intro registry
  have built : registry.functions.Built := run_built .empty steps
  refine ⟨built.nodup, ?_, ?_⟩
  · intro name member
    obtain ⟨f, published, rfl⟩ := List.mem_map.1 member
    obtain ⟨nonempty, chars⟩ := Function.checkName_eq_ok_iff.1 (built.checked f published)
    refine ⟨nonempty, fun c hc => ?_⟩
    simpa [Function.isNameChar] using chars c hc
  · intro more kept
    have grown := run_grows registry kept
    exact ⟨grown, fun name f => Repertoire.get?_of_prefix grown⟩

/-- The second function of a name is refused, and it stays refused when the first one's candidate is
gone. -/
theorem published_invariant_held_name :
    let first : Candidate := ⟨"first", .direct (.returned (.counter "f"))⟩
    let second : Candidate := ⟨"second", .direct (.returned (.refusing "f"))⟩
    let broken : Candidate := ⟨"broken", .annotated (.crashed none)⟩
    let registry := (create ⟨[first, second, broken]⟩ {}).run
      [.discover, .register (.counter "g h"), .register (.counter "g")]
    let more : List Step := [.register (.refusing "g"), .uninstall "first", .discover]
    .reload ∉ more ∧
      registry.functions.names.Nodup ∧
      registry.functions.get? "f" = some (Function.counter "f").guard ∧
      (registry.run more).functions.get? "f" = some (Function.counter "f").guard := by
  intro first second broken registry more
  have kept : .reload ∉ more := by simp [more]
  obtain ⟨distinct, -, stays⟩ := published_invariant ⟨[first, second, broken]⟩ {}
    [.discover, .register (.counter "g h"), .register (.counter "g")]
  have found : registry.functions.get? "f" = some (Function.counter "f").guard := rfl
  exact ⟨kept, distinct, found, (stays more kept).2 "f" _ found⟩

end Registry
end Reckoner
