import Reckoner.Proofs.Runs

/-! # Reports of discovery

A pass gives every candidate one verdict, and which one depends on the candidate and on the names
that are held when its turn comes (`Settled`).  A report is these verdicts in order, sorted into its
four lists, so that it is put together from the reports of the parts of a pass
(`Report.ofVerdicts_append`).  From this follows what a report accounts for (`discover_accounts`) and
that a candidate which does not register leaves no trace but its own entry (`unregistered_isolated`).
-/

namespace Reckoner

theorem Repertoire.names_of_prefix {known next : Repertoire}
    (grown : known.functions <+: next.functions) {name : String} (member : name ∈ known.names) :
    name ∈ next.names :=
  (grown.map Function.name).subset member

namespace Discovery

variable {exclusions : Exclusions} {known later next : Repertoire} {candidate : Candidate}
  {verdict : Verdict}

/-! ## Reports are put together -/

instance : Append Report where
  append first second :=
    ⟨first.registered ++ second.registered, first.duplicates ++ second.duplicates,
      first.disabled ++ second.disabled, first.failures ++ second.failures⟩

theorem Report.append_eq (first second : Report) : first ++ second =
    ⟨first.registered ++ second.registered, first.duplicates ++ second.duplicates,
      first.disabled ++ second.disabled, first.failures ++ second.failures⟩ := rfl

theorem Report.append_assoc (first second third : Report) :
    first ++ second ++ third = first ++ (second ++ third) := by
  simp only [append_eq, List.append_assoc]

theorem Report.ofVerdicts_append (verdicts more : List Verdict) :
    ofVerdicts (verdicts ++ more) = ofVerdicts verdicts ++ ofVerdicts more := by
  simp only [ofVerdicts, append_eq, List.filterMap_append]

theorem Report.ofVerdicts_cons (verdict : Verdict) (more : List Verdict) :
    ofVerdicts (verdict :: more) = ofVerdicts [verdict] ++ ofVerdicts more :=
  ofVerdicts_append [verdict] more

/-- How many entries the four lists have together. -/
def Report.size (report : Report) : Nat :=
  report.registered.length + report.duplicates.length + report.disabled.length +
    report.failures.length

theorem Report.size_append (first second : Report) :
    (first ++ second).size = first.size + second.size := by
  simp only [size, append_eq, List.length_append]
  omega

/-- Each verdict is one entry. -/
theorem Report.size_ofVerdicts (verdicts : List Verdict) :
    (ofVerdicts verdicts).size = verdicts.length := by
  induction verdicts with
  | nil => rfl
  | cons verdict rest ih =>
    have single : (ofVerdicts [verdict]).size = 1 := by cases verdict <;> rfl
    rw [ofVerdicts_cons, size_append, single, ih, List.length_cons, Nat.add_comm]

/-! ## The verdict on a candidate -/

/-- Which verdict the function of a name gets when the names `held` are taken: the exclusions are
asked first, then whether the name is usable, and only then whether it is free. -/
structure NameSettled (exclusions : Exclusions) (held : List String) (label name : String)
    (verdict : Verdict) : Prop where
  disabled_iff : verdict = .disabled name ↔ exclusions.excludes name = true
  failed_iff : exclusions.excludes name = false → ∀ failure,
    (verdict = .failed failure ↔ ∃ fault, Function.checkName name = .error fault ∧
      failure = .ofFault label fault)
  duplicate_iff : exclusions.excludes name = false → Function.checkName name = .ok () →
    (verdict = .duplicate name ↔ name ∈ held)
  registered_iff : exclusions.excludes name = false → Function.checkName name = .ok () →
    (verdict = .registered name ↔ name ∉ held)

/-- Which verdict a candidate gets when the names `held` are taken. -/
structure Settled (exclusions : Exclusions) (held : List String) (candidate : Candidate)
    (verdict : Verdict) : Prop where
  unbuilt : ∀ fault, candidate.instantiate = .error fault →
    verdict = .failed (.ofFault candidate.label fault)
  built : ∀ f, candidate.instantiate = .ok f →
    NameSettled exclusions held candidate.label f.name verdict

theorem settled_of_built {held : List String} {f : Function} (built : candidate.instantiate = .ok f)
    (h : NameSettled exclusions held candidate.label f.name verdict) :
    Settled exclusions held candidate verdict := by
  refine ⟨?_, ?_⟩
  · intro fault failed
    rw [built] at failed
    cases failed
  · intro g same
    rw [built] at same
    cases same
    exact h

theorem Judged.settled (h : Judged exclusions known candidate next verdict) :
    Settled exclusions known.names candidate verdict := by
  cases h with
  | unbuilt built => constructor <;> simp [built]
  | disabled built excluded =>
    refine settled_of_built built ?_
    constructor <;> simp [excluded]
  | misnamed built wanted refused =>
    refine settled_of_built built ?_
    constructor <;> simp [wanted, refused, eq_comm]
  | duplicate built wanted checked taken =>
    refine settled_of_built built ?_
    constructor <;> simp [wanted, checked, taken]
  | registered built wanted checked fresh =>
    refine settled_of_built built ?_
    constructor <;> simp [wanted, checked, fresh]

theorem judge_of_judged (h : Judged exclusions known candidate next verdict) :
    judge exclusions known candidate = (next, verdict) := by
  cases h with
  | unbuilt built => rw [judge, built]
  | disabled built excluded => simp [judge, built, excluded]
  | @misnamed f fault built wanted refused =>
    have kind := Function.kind_of_checkName refused
    cases fault with
    | configuration label reason =>
      simp [judge, built, wanted, Repertoire.insert_of_misnamed refused]
    | _ => cases kind
  | duplicate built wanted checked taken =>
    simp [judge, built, wanted, Repertoire.insert_of_taken checked taken]
  | registered built wanted checked fresh =>
    simp [judge, built, wanted, Repertoire.insert_eq_ok_iff.2 ⟨checked, fresh, rfl⟩]

/-- The function that a verdict adds to those known. -/
def added? : Candidate × Verdict → Option Function
  | (candidate, .registered _) => candidate.instantiate.toOption.map Function.guard
  | _ => none

theorem Judged.functions (h : Judged exclusions known candidate next verdict) :
    next.functions = known.functions ++ (added? (candidate, verdict)).toList := by
  cases h with
  | registered built wanted checked fresh =>
    rw [added?, built]
    rfl
  | _ => exact (List.append_nil _).symm

/-! ## The verdicts of a pass -/

variable {candidates xs : List Candidate}

theorem length_scan (exclusions : Exclusions) (known : Repertoire) (candidates : List Candidate) :
    (scan exclusions known candidates).2.length = candidates.length := by
  induction candidates generalizing known with
  | nil => rfl
  | cons candidate rest ih =>
    cases judgement : judge exclusions known candidate with
    | mk next verdict => rw [scan_cons judgement, List.length_cons, ih, List.length_cons]

theorem names_scan (exclusions : Exclusions) (known : Repertoire) (candidates : List Candidate) :
    (scan exclusions known candidates).1.names =
      known.names ++ (scan exclusions known candidates).2.filterMap Verdict.registered? := by
  obtain ⟨more, hfunctions, hnames, -⟩ := scan_grows exclusions known candidates
  rw [← hnames, Repertoire.names, hfunctions, List.map_append, Repertoire.names]

theorem functions_scan (exclusions : Exclusions) (known : Repertoire) (candidates : List Candidate) :
    (scan exclusions known candidates).1.functions =
      known.functions ++
        (candidates.zip (scan exclusions known candidates).2).filterMap added? := by
  induction candidates generalizing known with
  | nil => exact (List.append_nil _).symm
  | cons candidate rest ih =>
    cases judgement : judge exclusions known candidate with
    | mk next verdict =>
      rw [scan_cons judgement, ih, (judged_of_judge judgement).functions, List.append_assoc,
        List.zip_cons_cons, List.filterMap_cons]
      cases added? (candidate, verdict) <;> rfl

/-- The candidate at a place is judged by what the candidates before it have left. -/
theorem scan_middle (ys : List Candidate) (judgement : judge exclusions (scan exclusions known xs).1 candidate =
    (next, verdict)) :
    scan exclusions known (xs ++ candidate :: ys) =
      ((scan exclusions next ys).1,
        (scan exclusions known xs).2 ++ verdict :: (scan exclusions next ys).2) := by
  rw [scan_append, scan_cons judgement]

theorem settled_scan {i : Nat} (place : candidates[i]? = some candidate)
    (placed : (scan exclusions known candidates).2[i]? = some verdict) :
    Settled exclusions
      (known.names ++ ((scan exclusions known candidates).2.take i).filterMap Verdict.registered?)
      candidate verdict := by
  obtain ⟨xs, ys, rfl, rfl⟩ : ∃ xs ys, candidates = xs ++ candidate :: ys ∧ xs.length = i := by
    obtain ⟨inside, rfl⟩ := List.getElem?_eq_some_iff.1 place
    exact ⟨candidates.take i, candidates.drop (i + 1), by simp, by simp; omega⟩
  cases judgement : judge exclusions (scan exclusions known xs).1 candidate with
  | mk next verdict' =>
    have before := length_scan exclusions known xs
    rw [scan_middle ys judgement] at placed ⊢
    rw [List.getElem?_append_right (by omega), before] at placed
    obtain rfl : verdict' = verdict := by simpa using placed
    rw [← before, List.take_left, ← names_scan]
    exact (judged_of_judge judgement).settled

/-! ## The same pass again -/

/-- The name of a function that was registered, or that would have been if its name were free. -/
def Verdict.usable? : Verdict → Option String
  | registered name => some name
  | duplicate name => some name
  | _ => none

/-- The verdict when everything the pass could register is held already. -/
def Verdict.again : Verdict → Verdict
  | registered name => duplicate name
  | verdict => verdict

theorem Report.ofVerdicts_again (verdicts : List Verdict) :
    ofVerdicts (verdicts.map Verdict.again) =
      ⟨[], verdicts.filterMap Verdict.usable?, (ofVerdicts verdicts).disabled,
        (ofVerdicts verdicts).failures⟩ := by
  induction verdicts with
  | nil => rfl
  | cons verdict rest ih =>
    rw [List.map_cons, ofVerdicts_cons, ih, ofVerdicts_cons verdict]
    cases verdict <;> rfl

theorem Judged.again (h : Judged exclusions known candidate next verdict)
    (held : ∀ name, verdict.usable? = some name → name ∈ later.names) :
    judge exclusions later candidate = (later, verdict.again) := by
  refine judge_of_judged ?_
  cases h with
  | unbuilt built => exact .unbuilt built
  | disabled built excluded => exact .disabled built excluded
  | misnamed built wanted refused => exact .misnamed built wanted refused
  | duplicate built wanted checked taken => exact .duplicate built wanted checked (held _ rfl)
  | registered built wanted checked fresh => exact .duplicate built wanted checked (held _ rfl)

theorem scan_again
    (held : ∀ name ∈ (scan exclusions known candidates).2.filterMap Verdict.usable?,
      name ∈ later.names) :
    scan exclusions later candidates =
      (later, (scan exclusions known candidates).2.map Verdict.again) := by
  induction candidates generalizing known with
  | nil => rfl
  | cons candidate rest ih =>
    cases judgement : judge exclusions known candidate with
    | mk next verdict =>
      rw [scan_cons judgement] at held ⊢
      have heldFirst : ∀ name, verdict.usable? = some name → name ∈ later.names :=
        fun name usable => held name (List.mem_filterMap.2 ⟨verdict, List.mem_cons_self .., usable⟩)
      have heldRest : ∀ name ∈ (scan exclusions next rest).2.filterMap Verdict.usable?,
          name ∈ later.names := by
        intro name member
        obtain ⟨other, inRest, usable⟩ := List.mem_filterMap.1 member
        exact held name (List.mem_filterMap.2 ⟨other, List.mem_cons_of_mem _ inRest, usable⟩)
      rw [scan_cons ((judged_of_judge judgement).again heldFirst), ih heldRest, List.map_cons]

theorem Judged.usable_held (h : Judged exclusions known candidate next verdict) {name : String}
    (usable : verdict.usable? = some name) : name ∈ next.names := by
  cases h with
  | duplicate built wanted checked taken =>
    cases usable
    exact taken
  | registered built wanted checked fresh =>
    cases usable
    simp [Repertoire.names]
  | _ => cases usable

/-- What a pass registers or finds taken is held when it ends. -/
theorem usable_held (exclusions : Exclusions) (known : Repertoire) (candidates : List Candidate) :
    ∀ name ∈ (scan exclusions known candidates).2.filterMap Verdict.usable?,
      name ∈ (scan exclusions known candidates).1.names := by
  induction candidates generalizing known with
  | nil => simp [scan]
  | cons candidate rest ih =>
    cases judgement : judge exclusions known candidate with
    | mk next verdict =>
      rw [scan_cons judgement]
      intro name member
      obtain ⟨other, member, usable⟩ := List.mem_filterMap.1 member
      cases member with
      | head =>
        have grown := scan_prefix exclusions next rest
        exact Repertoire.names_of_prefix grown ((judged_of_judge judgement).usable_held usable)
      | tail _ inRest => exact ih next name (List.mem_filterMap.2 ⟨other, inRest, usable⟩)

end Discovery

namespace Registry

open Discovery (Report Verdict Settled added? scan)

/-! ## Discovery and reload -/

/-- The verdicts of a pass that starts with the functions given. -/
def verdictsFrom (registry : Registry) (start : Repertoire) : List Verdict :=
  (scan registry.exclusions start registry.catalogue.candidates).2

theorem discover_of_scan {registry : Registry} {exclusions : Exclusions}
    {candidates : List Candidate} (sameExclusions : registry.exclusions = exclusions)
    (sameCandidates : registry.catalogue.candidates = candidates) :
    registry.discover.1.functions = (scan exclusions registry.functions candidates).1 ∧
      registry.discover.2 = .ofVerdicts (scan exclusions registry.functions candidates).2 := by
  rw [← sameExclusions, ← sameCandidates]
  exact ⟨rfl, rfl⟩

/-- A discovery that finds the candidates of an earlier one, with nothing forgotten in between, finds
all held that the earlier one could have registered. -/
theorem discover_again (registry : Registry) {more : List Step} (kept : .reload ∉ more)
    (unchanged : (registry.discover.1.run more).catalogue.candidates =
      registry.catalogue.candidates) :
    let later := registry.discover.1.run more
    later.discover.1.functions = later.functions ∧
      later.discover.2 =
        ⟨[], (registry.verdictsFrom registry.functions).filterMap Verdict.usable?,
          registry.discover.2.disabled, registry.discover.2.failures⟩ := by
  intro later
  have held : ∀ name ∈ (registry.verdictsFrom registry.functions).filterMap Verdict.usable?,
      name ∈ later.functions.names := by
    intro name member
    have heldThen := Discovery.usable_held registry.exclusions registry.functions
      registry.catalogue.candidates name member
    exact Repertoire.names_of_prefix (run_grows registry.discover.1 kept) heldThen
  obtain ⟨functions, reported⟩ :=
    discover_of_scan (run_exclusions registry.discover.1 more) unchanged
  have pass : scan registry.exclusions later.functions registry.catalogue.candidates =
      (later.functions, (registry.verdictsFrom registry.functions).map Verdict.again) :=
    Discovery.scan_again held
  refine ⟨functions.trans (congrArg Prod.fst pass), ?_⟩
  have reportedAgain := reported.trans (congrArg (fun pass => Report.ofVerdicts pass.2) pass)
  exact reportedAgain.trans (Report.ofVerdicts_again _)

/-- Every candidate of a discovery has one entry in the report, which says what the candidate, the
exclusions and the names held by then leave no choice about; the registered functions stand behind
those published before, in the order of their candidates.  As long as nothing is reloaded, a later
discovery over the same candidates changes nothing: it finds duplicates where there were
registrations. -/
theorem discover_accounts (registry : Registry) :
    let candidates := registry.catalogue.candidates
    let published := registry.functions
    let verdicts := registry.verdictsFrom published
    let next := registry.discover.1
    let report := registry.discover.2
    verdicts.length = candidates.length ∧
      report = .ofVerdicts verdicts ∧ report.size = candidates.length ∧
      (∀ (i : Nat) (candidate : Candidate) (verdict : Verdict), candidates[i]? = some candidate →
        verdicts[i]? = some verdict →
        Settled registry.exclusions
          (published.names ++ (verdicts.take i).filterMap Verdict.registered?) candidate verdict) ∧
      next.functions.functions =
        published.functions ++ (candidates.zip verdicts).filterMap added? ∧
      next.functions.names = published.names ++ report.registered ∧
      ∀ more : List Step, .reload ∉ more →
        (next.run more).catalogue.candidates = candidates →
        (next.run more).discover.1.functions = (next.run more).functions ∧
          (next.run more).discover.2 =
            ⟨[], verdicts.filterMap Verdict.usable?, report.disabled, report.failures⟩ := by
  intro candidates published verdicts next report
  have length : verdicts.length = candidates.length :=
    Discovery.length_scan registry.exclusions published candidates
  refine ⟨length, rfl, ?_, ?_, ?_, ?_, ?_⟩
  · exact (Report.size_ofVerdicts verdicts).trans length
  · intro i candidate verdict place placed
    exact Discovery.settled_scan place placed
  · exact Discovery.functions_scan registry.exclusions published candidates
  · exact Discovery.names_scan registry.exclusions published candidates
  · exact fun more kept unchanged => discover_again registry kept unchanged

/-- An excluded name is reported as excluded whether or not it could be called, and of two
candidates of one name the second is a duplicate; a later pass finds both to be duplicates. -/
theorem discover_accounts_each_list :
    let spaced : Candidate := ⟨"spaced", .direct (.returned (.counter "g h"))⟩
    let first : Candidate := ⟨"first", .direct (.returned (.counter "f"))⟩
    let unnamed : Candidate := ⟨"unnamed", .direct (.returned (.counter ""))⟩
    let second : Candidate := ⟨"second", .direct (.returned (.refusing "f"))⟩
    let broken : Candidate := ⟨"broken", .annotated (.crashed none)⟩
    let candidates := [spaced, first, unnamed, second, broken]
    let registry := create ⟨candidates⟩ ⟨["g h"]⟩
    let next := registry.discover.1
    let more : List Step := [.register (.counter "k"), .install ⟨"late", .direct (.crashed none)⟩,
      .uninstall "late"]
    .reload ∉ more ∧ (next.run more).catalogue.candidates = candidates ∧
      Settled ⟨["g h"]⟩ ["f"] second (.duplicate "f") ∧
      registry.discover.2.size = 5 ∧
      (next.run more).discover.1.functions.names = ["f", "k"] ∧
      (next.run more).discover.2.duplicates = ["f", "f"] := by
  intro spaced first unnamed second broken candidates registry next more
  have kept : .reload ∉ more := by simp [more]
  have unchanged : (next.run more).catalogue.candidates = candidates := rfl
  obtain ⟨-, -, size, settled, -, -, again⟩ := discover_accounts registry
  obtain ⟨functions, reported⟩ := again more kept unchanged
  refine ⟨kept, unchanged, settled 3 second _ rfl rfl, size, ?_, ?_⟩
  · rw [functions]
    rfl
  · rw [reported]
    rfl

/-! ## Candidates that do not register -/

/-- The registry with other candidates in its catalogue. -/
def offering (registry : Registry) (candidates : List Candidate) : Registry :=
  { registry with catalogue := ⟨candidates⟩ }

theorem functions_of_offering (registry : Registry) (start : Repertoire)
    (candidates : List Candidate) :
    ((registry.offering candidates).discoverFrom start).1.functions =
      (scan registry.exclusions start candidates).1 := rfl

theorem report_of_offering (registry : Registry) (start : Repertoire)
    (candidates : List Candidate) :
    ((registry.offering candidates).discoverFrom start).2 =
      .ofVerdicts (scan registry.exclusions start candidates).2 := rfl

theorem verdictsFrom_offering (registry : Registry) (start : Repertoire)
    (candidates : List Candidate) :
    (registry.offering candidates).verdictsFrom start =
      (scan registry.exclusions start candidates).2 := rfl

/-- The second pass publishes what the first one does, and of the entries in its report only the one
in front of `after` is missing. -/
structure Lacks (entry before : Report) (first second : Registry × Report) : Prop where
  published : second.1.functions = first.1.functions
  reported : ∃ after, first.2 = before ++ entry ++ after ∧ second.2 = before ++ after

theorem discoverFrom_lacks (registry : Registry) (start : Repertoire) {xs ys : List Candidate}
    {b : Candidate} {verdict : Verdict}
    (placed : ((registry.offering (xs ++ b :: ys)).verdictsFrom start)[xs.length]? = some verdict)
    (unregistered : verdict.registered? = none) :
    Lacks (.ofVerdicts [verdict]) ((registry.offering xs).discoverFrom start).2
      ((registry.offering (xs ++ b :: ys)).discoverFrom start)
      ((registry.offering (xs ++ ys)).discoverFrom start) := by
  cases judgement : Discovery.judge registry.exclusions (scan registry.exclusions start xs).1 b with
  | mk next other =>
    have whole := Discovery.scan_middle ys judgement
    have parted := Discovery.scan_append registry.exclusions start xs ys
    obtain rfl : other = verdict := by
      rw [verdictsFrom_offering, whole, ← Discovery.length_scan registry.exclusions start xs] at placed
      simpa using placed
    obtain rfl : next = (scan registry.exclusions start xs).1 := by
      cases (Discovery.judged_of_judge judgement).next_cases with
      | inl kept => exact kept.1
      | inr added =>
        obtain ⟨f, -, -, -, rfl⟩ := added
        cases unregistered
    refine ⟨?_, .ofVerdicts (scan registry.exclusions (scan registry.exclusions start xs).1 ys).2,
      ?_, ?_⟩
    · rw [functions_of_offering, functions_of_offering, whole, parted]
    · rw [report_of_offering, report_of_offering, whole, Report.ofVerdicts_append,
        Report.ofVerdicts_cons, Report.append_assoc]
    · rw [report_of_offering, report_of_offering, parted, Report.ofVerdicts_append]

/-- A candidate that a discovery or a reload does not register might as well be missing: what is
published is the same, and of the entries in the report only its own one goes. -/
theorem unregistered_isolated (registry : Registry) (xs ys : List Candidate) (b : Candidate)
    (verdict : Verdict) (unregistered : verdict.registered? = none) :
    let whole := registry.offering (xs ++ b :: ys)
    let parted := registry.offering (xs ++ ys)
    let front := registry.offering xs
    (Report.ofVerdicts [verdict]).size = 1 ∧
      ((whole.verdictsFrom registry.functions)[xs.length]? = some verdict →
        Lacks (.ofVerdicts [verdict]) front.discover.2 whole.discover parted.discover) ∧
      ((whole.verdictsFrom .empty)[xs.length]? = some verdict →
        Lacks (.ofVerdicts [verdict]) front.reload.2 whole.reload parted.reload) := by
  intro whole parted front
  refine ⟨Report.size_ofVerdicts [verdict], ?_, ?_⟩
  · exact fun placed => discoverFrom_lacks registry registry.functions placed unregistered
  · exact fun placed => discoverFrom_lacks registry .empty placed unregistered

/-- Without the second function of a name the list of duplicates is empty, and all else stays. -/
theorem unregistered_isolated_duplicate :
    let first : Candidate := ⟨"first", .direct (.returned (.counter "f"))⟩
    let second : Candidate := ⟨"second", .direct (.returned (.refusing "f"))⟩
    let broken : Candidate := ⟨"broken", .annotated (.crashed none)⟩
    let third : Candidate := ⟨"third", .direct (.returned (.counter "h"))⟩
    let registry := create .empty {}
    let whole := registry.offering ([first] ++ second :: [broken, third])
    let parted := registry.offering ([first] ++ [broken, third])
    (Verdict.duplicate "f").registered? = none ∧
      (whole.verdictsFrom registry.functions)[1]? = some (.duplicate "f") ∧
      (whole.verdictsFrom .empty)[1]? = some (.duplicate "f") ∧
      parted.discover.1.functions = whole.discover.1.functions ∧
      parted.reload.1.functions.names = ["f", "h"] ∧
      whole.discover.2.duplicates = ["f"] ∧ parted.discover.2.duplicates = [] := by
  intro first second broken third registry whole parted
  have unregistered : (Verdict.duplicate "f").registered? = none := rfl
  have placed : (whole.verdictsFrom registry.functions)[1]? = some (.duplicate "f") := rfl
  have placedAnew : (whole.verdictsFrom .empty)[1]? = some (.duplicate "f") := rfl
  obtain ⟨-, discovered, reloaded⟩ := unregistered_isolated registry [first] [broken, third] second
    (.duplicate "f") unregistered
  refine ⟨unregistered, placed, placedAnew, (discovered placed).published, ?_, rfl, rfl⟩
  rw [Repertoire.names, (reloaded placedAnew).published]
  rfl

end Registry

end Reckoner
