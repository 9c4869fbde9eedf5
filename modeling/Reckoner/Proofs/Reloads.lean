import Reckoner.Proofs.Runs

/-! # Reloads

A reload sees the catalogue and the exclusions and nothing else of the registry (`reload_congr`),
and a run leaves in the catalogue what it installed and did not remove later (`run_candidates`).  So
a reload forgets the run behind it (`reload_forgets`).  Candidates that were installed later come
later in the pass and find the earlier functions in place (`reload_installed`).
-/

namespace Reckoner.Registry

open Discovery (Offered Verdict scan takenName?)

variable {registry other : Registry}

/-! ## The catalogue behind a run -/

/-- Whether the step removes the candidates with the label. -/
def Step.removes (label : String) : Step → Bool
  | .uninstall other => other = label
  | _ => false

/-- The candidates that are installed and not removed later, in the order of their installation. -/
def survivors : List Step → List Candidate
  | [] => []
  | .install candidate :: rest =>
    if rest.any (Step.removes candidate.label) then survivors rest
    else candidate :: survivors rest
  | _ :: rest => survivors rest

theorem run_installs (registry : Registry) (candidates : List Candidate) :
    registry.run (candidates.map .install) =
      { registry with catalogue := ⟨registry.catalogue.candidates ++ candidates⟩ } := by
  induction candidates generalizing registry with
  | nil => simp
  | cons candidate rest ih =>
    rw [List.map_cons, run_cons, ih]
    simp [step, install, Catalogue.install]

theorem run_candidates {steps : List Step} (steady : ∀ recipe, .vary recipe ∉ steps) :
    (registry.run steps).catalogue.candidates =
      registry.catalogue.candidates.filter (fun c => !steps.any (Step.removes c.label)) ++
        survivors steps := by
  induction steps generalizing registry with
  | nil => simp [survivors]
  | cons first rest ih =>
    have steadyRest : ∀ recipe, .vary recipe ∉ rest := fun recipe member =>
      steady recipe (List.mem_cons_of_mem _ member)
    rw [run_cons, ih steadyRest]
    cases first with
    -- A new candidate stays if no later step removes it, an old one if this step does not either.
    | install candidate =>
      have placed : (registry.step (.install candidate)).catalogue.candidates =
          registry.catalogue.candidates ++ [candidate] := rfl
      rw [placed, List.filter_append, List.append_assoc, survivors]
      cases removed : rest.any (Step.removes candidate.label) <;> simp [removed, Step.removes]
    | uninstall label =>
      have left : (registry.step (.uninstall label)).catalogue.candidates =
          registry.catalogue.candidates.filter (fun c => c.label ≠ label) := rfl
      have later : survivors (.uninstall label :: rest) = survivors rest := rfl
      rw [left, List.filter_filter, later]
      congr 2
      funext c
      simp [Step.removes, Bool.and_comm, eq_comm]
    | vary recipe => exact absurd (List.mem_cons_self ..) (steady recipe)
    | discover | reload => rfl
    | register f =>
      rw [(registry.step_register_frame f).1]
      rfl

/-! ## What a reload publishes -/

theorem functions_of_reload (registry : Registry) : registry.reload.1.functions =
    (scan registry.exclusions .empty registry.catalogue.candidates).1 := rfl

theorem report_of_reload (registry : Registry) : registry.reload.2 =
    .ofVerdicts (scan registry.exclusions .empty registry.catalogue.candidates).2 := rfl

theorem built_of_reload (registry : Registry) : registry.reload.1.functions.Built := by
  rw [functions_of_reload]
  exact Discovery.scan_built _ .empty _

theorem reload_congr (exclusions : registry.exclusions = other.exclusions)
    (candidates : registry.catalogue.candidates = other.catalogue.candidates) :
    registry.reload.1.functions = other.reload.1.functions ∧
      registry.reload.2 = other.reload.2 := by
  rw [functions_of_reload, functions_of_reload, report_of_reload, report_of_reload, exclusions,
    candidates]
  exact ⟨rfl, rfl⟩

theorem registered_of_reload (registry : Registry) :
    registry.reload.2.registered = registry.reload.1.functions.names := by
  obtain ⟨more, hfunctions, hnames, -⟩ :=
    Discovery.scan_grows registry.exclusions .empty registry.catalogue.candidates
  rw [report_of_reload, functions_of_reload, Repertoire.names, hfunctions]
  exact hnames.symm

theorem offered_of_reload (registry : Registry) : ∀ f ∈ registry.reload.1.functions.functions,
    Offered registry.exclusions registry.catalogue.candidates f := by
  obtain ⟨more, hfunctions, -, hoffered⟩ :=
    Discovery.scan_grows registry.exclusions .empty registry.catalogue.candidates
  rw [functions_of_reload, hfunctions]
  exact hoffered

/-- Behind any run a reload publishes and reports what the first discovery would, had the candidates
that are left been there from the start.  It publishes what it reports as registered and what they
offer, and it does the same again as long as the catalogue is the same. -/
theorem reload_forgets (catalogue : Catalogue) (exclusions : Exclusions) (steps : List Step)
    (steady : ∀ recipe, .vary recipe ∉ steps) :
    let registry := (create catalogue exclusions).run steps
    let left := survivors (catalogue.candidates.map .install ++ steps)
    let fresh := create ⟨left⟩ exclusions
    registry.reload.1.functions = fresh.discover.1.functions ∧
      registry.reload.2 = fresh.discover.2 ∧
      registry.reload.2.registered = registry.reload.1.functions.names ∧
      (∀ f ∈ registry.reload.1.functions.functions, Offered exclusions left f) ∧
      ∀ more : List Step,
        (registry.reload.1.run more).catalogue.candidates = registry.catalogue.candidates →
          (registry.reload.1.run more).reload.1.functions = registry.reload.1.functions ∧
            (registry.reload.1.run more).reload.2 = registry.reload.2 := by
  intro registry left fresh
  have hexclusions : registry.exclusions = exclusions := run_exclusions _ steps
  have hcandidates : registry.catalogue.candidates = left := by
    -- The run begins, as it were, with the installation of what is in the catalogue already.
    have begun : create catalogue exclusions =
        (create .empty exclusions).run (catalogue.candidates.map .install) := by
      rw [run_installs]
      rfl
    have whole : registry =
        (create .empty exclusions).run (catalogue.candidates.map .install ++ steps) := by
      rw [run_append, ← begun]
    have steadyWhole : ∀ recipe, .vary recipe ∉ catalogue.candidates.map .install ++ steps := by
      simpa using steady
    rw [whole, run_candidates steadyWhole]
    rfl
  have asFresh : registry.reload.1.functions = fresh.reload.1.functions ∧
      registry.reload.2 = fresh.reload.2 := reload_congr hexclusions hcandidates
  refine ⟨asFresh.1, asFresh.2, registered_of_reload registry, ?_, ?_⟩
  · have offered := offered_of_reload registry
    rwa [hexclusions, hcandidates] at offered
  · intro more unchanged
    exact reload_congr (run_exclusions registry.reload.1 more) unchanged

/-- A registration by hand and a removed candidate are gone after the reload. -/
theorem reload_forgets_removed :
    let first : Candidate := ⟨"first", .direct (.returned (.counter "f"))⟩
    let second : Candidate := ⟨"second", .direct (.returned (.refusing "f"))⟩
    let third : Candidate := ⟨"third", .direct (.returned (.counter "h"))⟩
    let steps : List Step := [.discover, .register (.counter "g"), .install second, .discover,
      .uninstall "first", .install third]
    let registry := (create ⟨[first]⟩ {}).run steps
    (∀ recipe, .vary recipe ∉ steps) ∧
      registry.functions.names = ["f", "g"] ∧
      registry.reload.1.functions = (create ⟨[second, third]⟩ {}).discover.1.functions ∧
      registry.reload.2.registered = ["f", "h"] := by
  intro first second third steps registry
  have steady : ∀ recipe, .vary recipe ∉ steps := by simp [steps]
  obtain ⟨published, reported, -⟩ := reload_forgets ⟨[first]⟩ {} steps steady
  have left : survivors ([first].map .install ++ steps) = [second, third] := rfl
  rw [left] at published reported
  refine ⟨steady, rfl, published, ?_⟩
  rw [reported]
  rfl

/-! ## Candidates that come later -/

/-- What a reload publishes is usable and not excluded. -/
theorem usable_of_reload (registry : Registry) : ∀ name ∈ registry.reload.1.functions.names,
    Function.checkName name = .ok () ∧ registry.exclusions.excludes name = false := by
  intro name member
  obtain ⟨f, published, rfl⟩ := List.mem_map.1 member
  obtain ⟨candidate, -, g, -, wanted, rfl⟩ := offered_of_reload registry f published
  exact ⟨(built_of_reload registry).checked _ published, wanted⟩

/-- The pass goes on where the one before it ended. -/
theorem reload_run_installs (registry : Registry) (added : List Candidate) :
    let before := registry.reload
    let after := (before.1.run (added.map .install)).reload
    let behind := scan registry.exclusions before.1.functions added
    after.1.functions = behind.1 ∧
      after.2.duplicates = before.2.duplicates ++ behind.2.filterMap Verdict.duplicate? := by
  intro before after behind
  have hafter : after = ({ before.1 with
      catalogue := ⟨registry.catalogue.candidates ++ added⟩ } : Registry).reload :=
    congrArg reload (run_installs before.1 added)
  have whole := Discovery.scan_append registry.exclusions .empty registry.catalogue.candidates added
  rw [← functions_of_reload] at whole
  have functionsWhole := congrArg Prod.fst whole
  have duplicatesWhole := congrArg (fun pass => pass.2.filterMap Verdict.duplicate?) whole
  rw [hafter]
  exact ⟨functionsWhole, duplicatesWhole.trans List.filterMap_append⟩

/-- Candidates that are installed after a reload change no value at the next one: the functions that
were published stay in front, and who brings the name of one of them is reported as a duplicate,
behind the duplicates there were. -/
theorem reload_installed (registry : Registry) (added : List Candidate) :
    let before := registry.reload
    let after := (before.1.run (added.map .install)).reload
    (∀ text v, before.1.functions.evaluate text = .ok v →
        after.1.functions.evaluate text = .ok v) ∧
      before.1.functions.functions <+: after.1.functions.functions ∧
      ∃ behind, after.2.duplicates = before.2.duplicates ++ behind ∧
        (added.filterMap (takenName? before.1.functions)).Sublist behind := by
  intro before after
  obtain ⟨hfunctions, hduplicates⟩ := reload_run_installs registry added
  have grown : before.1.functions.functions <+: after.1.functions.functions := by
    rw [hfunctions]
    exact Discovery.scan_prefix _ _ _
  refine ⟨fun text v => Repertoire.evaluate_of_prefix grown, grown, _, hduplicates, ?_⟩
  exact Discovery.takenNames_sublist (fun _ member => member) (usable_of_reload registry) added

theorem reload_installed_duplicate :
    let first : Candidate := ⟨"first", .direct (.returned (.counter "sint"))⟩
    let second : Candidate := ⟨"second", .direct (.returned (.refusing "sint"))⟩
    let broken : Candidate := ⟨"broken", .direct (.crashed (some "gone"))⟩
    let shorter : Candidate := ⟨"shorter", .direct (.returned (.refusing "sin"))⟩
    let before := (create ⟨[first]⟩ {}).reload
    let after := (before.1.run ([second, broken, shorter].map .install)).reload
    before.1.functions.evaluate "sint(1)" = .ok (Nat.toFloat 1) ∧
      after.1.functions.evaluate "sint(1)" = .ok (Nat.toFloat 1) ∧
      after.1.functions.names = ["sint", "sin"] ∧
      ["sint"].Sublist after.2.duplicates := by
  intro first second broken shorter before after
  obtain ⟨values, -, behind, hduplicates, held⟩ :=
    reload_installed (create ⟨[first]⟩ {}) [second, broken, shorter]
  have built : before.1.functions.Built := built_of_reload _
  have written : callText "sint" ["1"] = "sint(1)" := by decide
  have value : before.1.functions.evaluate "sint(1)" = .ok (Nat.toFloat 1) := by
    rw [← written]
    exact Repertoire.evaluate_counter built "sint" (List.mem_cons_self ..) (by decide)
      (by rw [written]; decide)
  refine ⟨value, values _ _ value, rfl, ?_⟩
  rw [hduplicates]
  exact held.trans (List.sublist_append_right _ _)

end Reckoner.Registry
