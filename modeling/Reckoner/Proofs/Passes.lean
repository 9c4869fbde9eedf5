import Reckoner.Proofs.Repertoires
import Reckoner.Registry.Discovery

/-! # Passes of discovery

`Judged` lists the five things that can become of a candidate; only the last of them adds to the
functions.  A pass is a chain of judgements.  What one judgement does to the functions is said once
(`Judged.next_cases`), and what a whole pass does follows by induction over the candidates: it puts
new functions behind the old ones (`scan_grows`) and keeps them well named (`scan_built`).
-/

namespace Reckoner

theorem Function.kind_of_checkName {name : String} {fault : Fault}
    (h : checkName name = .error fault) : fault.kind = .configurationError := by
  unfold checkName at h
  split at h
  · cases h
    rfl
  · split at h
    · cases h
    · cases h
      rfl

namespace Repertoire

variable {known : Repertoire} {f : Function}

theorem insert_of_misnamed {fault : Fault} (refused : Function.checkName f.name = .error fault) :
    known.insert f = .error fault := by
  rw [insert, refused]

theorem insert_of_taken (checked : Function.checkName f.name = .ok ())
    (taken : f.name ∈ known.names) : known.insert f = .error (.duplicateName f.name) := by
  rw [insert, checked]
  exact if_pos (contains_iff.2 taken)

end Repertoire

namespace Discovery

variable {exclusions : Exclusions} {known next : Repertoire} {candidate : Candidate}
  {verdict : Verdict}

/-! ## One candidate -/

/-- What can become of a candidate: the functions known after it, and its verdict. -/
inductive Judged (exclusions : Exclusions) (known : Repertoire) (candidate : Candidate) :
    Repertoire → Verdict → Prop where
  | unbuilt {fault : Fault} (built : candidate.instantiate = .error fault) :
      Judged exclusions known candidate known (.failed (.ofFault candidate.label fault))
  | disabled {f : Function} (built : candidate.instantiate = .ok f)
      (excluded : exclusions.excludes f.name = true) :
      Judged exclusions known candidate known (.disabled f.name)
  | misnamed {f : Function} {fault : Fault} (built : candidate.instantiate = .ok f)
      (wanted : exclusions.excludes f.name = false)
      (refused : Function.checkName f.name = .error fault) :
      Judged exclusions known candidate known (.failed (.ofFault candidate.label fault))
  | duplicate {f : Function} (built : candidate.instantiate = .ok f)
      (wanted : exclusions.excludes f.name = false)
      (checked : Function.checkName f.name = .ok ()) (taken : f.name ∈ known.names) :
      Judged exclusions known candidate known (.duplicate f.name)
  | registered {f : Function} (built : candidate.instantiate = .ok f)
      (wanted : exclusions.excludes f.name = false)
      (checked : Function.checkName f.name = .ok ()) (fresh : f.name ∉ known.names) :
      Judged exclusions known candidate ⟨known.functions ++ [f.guard]⟩ (.registered f.name)

theorem judged_of_judge (h : judge exclusions known candidate = (next, verdict)) :
    Judged exclusions known candidate next verdict := by
  unfold judge at h
  cases built : candidate.instantiate with
  | error fault =>
    rw [built] at h
    cases h
    exact .unbuilt built
  | ok f =>
    rw [built] at h
    dsimp only at h
    cases excluded : exclusions.excludes f.name with
    | true =>
      rw [if_pos excluded] at h
      cases h
      exact .disabled built excluded
    | false =>
      rw [if_neg (by rw [excluded]; decide)] at h
      cases named : Function.checkName f.name with
      | error fault =>
        have kind := Function.kind_of_checkName named
        rw [Repertoire.insert_of_misnamed named] at h
        -- The fault of a name is never mistaken for that of a name that is taken.
        cases fault with
        | configuration label reason =>
          cases h
          exact .misnamed built excluded named
        | _ => cases kind
      | ok checked =>
        by_cases taken : f.name ∈ known.names
        · rw [Repertoire.insert_of_taken named taken] at h
          cases h
          exact .duplicate built excluded named taken
        · rw [Repertoire.insert_eq_ok_iff.2 ⟨named, taken, rfl⟩] at h
          cases h
          exact .registered built excluded named taken

theorem Judged.next_cases (h : Judged exclusions known candidate next verdict) :
    (next = known ∧ verdict.registered? = none) ∨
      ∃ f, candidate.instantiate = .ok f ∧ exclusions.excludes f.name = false ∧
        known.insert f = .ok next ∧ verdict = .registered f.name := by
  cases h with
  | registered built wanted checked fresh =>
    have inserted := Repertoire.insert_eq_ok_iff.2 ⟨checked, fresh, rfl⟩
    exact .inr ⟨_, built, wanted, inserted, rfl⟩
  | _ => exact .inl ⟨rfl, rfl⟩

/-! ## A pass -/

variable {rest : List Candidate}

theorem scan_cons (h : judge exclusions known candidate = (next, verdict)) :
    scan exclusions known (candidate :: rest) =
      ((scan exclusions next rest).1, verdict :: (scan exclusions next rest).2) := by
  rw [scan, h]

theorem scan_append (exclusions : Exclusions) (known : Repertoire)
    (candidates more : List Candidate) :
    scan exclusions known (candidates ++ more) =
      ((scan exclusions (scan exclusions known candidates).1 more).1,
        (scan exclusions known candidates).2 ++
          (scan exclusions (scan exclusions known candidates).1 more).2) := by
  induction candidates generalizing known with
  | nil => rfl
  | cons candidate rest ih =>
    cases judgement : judge exclusions known candidate with
    | mk next verdict =>
      rw [List.cons_append, scan_cons judgement, scan_cons judgement, ih, List.cons_append]

theorem scan_built (exclusions : Exclusions) (built : known.Built) (candidates : List Candidate) :
    (scan exclusions known candidates).1.Built := by
  induction candidates generalizing known with
  | nil => exact built
  | cons candidate rest ih =>
    cases judgement : judge exclusions known candidate with
    | mk next verdict =>
      rw [scan_cons judgement]
      refine ih ?_
      cases (judged_of_judge judgement).next_cases with
      | inl kept => rwa [kept.1]
      | inr added =>
        obtain ⟨f, -, -, inserted, -⟩ := added
        exact .insert built inserted

/-- The function of a candidate that is not excluded, with its guard. -/
def Offered (exclusions : Exclusions) (candidates : List Candidate) (stored : Function) : Prop :=
  ∃ candidate ∈ candidates, ∃ f, candidate.instantiate = .ok f ∧
    exclusions.excludes f.name = false ∧ stored = f.guard

theorem Offered.cons {stored : Function} (h : Offered exclusions rest stored) :
    Offered exclusions (candidate :: rest) stored := by
  obtain ⟨other, member, offer⟩ := h
  exact ⟨other, List.mem_cons_of_mem _ member, offer⟩

/-- A pass puts the functions that it reports as registered behind those known before. -/
theorem scan_grows (exclusions : Exclusions) (known : Repertoire) (candidates : List Candidate) :
    ∃ more, (scan exclusions known candidates).1.functions = known.functions ++ more ∧
      more.map Function.name = (scan exclusions known candidates).2.filterMap Verdict.registered? ∧
      ∀ stored ∈ more, Offered exclusions candidates stored := by
  induction candidates generalizing known with
  | nil => exact ⟨[], by simp [scan], rfl, by simp⟩
  | cons candidate rest ih =>
    cases judgement : judge exclusions known candidate with
    | mk next verdict =>
      rw [scan_cons judgement]
      obtain ⟨more, hfunctions, hnames, hoffered⟩ := ih next
      cases (judged_of_judge judgement).next_cases with
      | inl kept =>
        obtain ⟨rfl, unregistered⟩ := kept
        refine ⟨more, hfunctions, ?_, fun stored member => (hoffered stored member).cons⟩
        rw [hnames, List.filterMap_cons_none unregistered]
      | inr added =>
        obtain ⟨f, built, wanted, inserted, rfl⟩ := added
        obtain ⟨-, -, rfl⟩ := Repertoire.insert_eq_ok_iff.1 inserted
        refine ⟨f.guard :: more, ?_, ?_, ?_⟩
        · rw [hfunctions, List.append_assoc, List.singleton_append]
        · rw [List.map_cons, hnames]
          rfl
        · intro stored member
          cases member with
          | head => exact ⟨candidate, List.mem_cons_self .., f, built, wanted, rfl⟩
          | tail _ member => exact (hoffered stored member).cons

theorem scan_prefix (exclusions : Exclusions) (known : Repertoire) (candidates : List Candidate) :
    known.functions <+: (scan exclusions known candidates).1.functions := by
  obtain ⟨more, hfunctions, -⟩ := scan_grows exclusions known candidates
  exact ⟨more, hfunctions.symm⟩

/-! ## Names that are taken -/

/-- The name of a candidate's function, if one of the functions holds it. -/
def takenName? (known : Repertoire) (candidate : Candidate) : Option String :=
  match candidate.instantiate with
  | .error _ => none
  | .ok f => if f.name ∈ known.names then some f.name else none

theorem takenName?_of_built {f : Function} (built : candidate.instantiate = .ok f) :
    takenName? known candidate = if f.name ∈ known.names then some f.name else none := by
  rw [takenName?, built]

/-- A held name may be brought again, but only as a duplicate. -/
theorem Judged.takenName?_cases {later : Repertoire} (h : Judged exclusions later candidate next verdict)
    (grown : ∀ name ∈ known.names, name ∈ later.names)
    (usable : ∀ name ∈ known.names, Function.checkName name = .ok () ∧
      exclusions.excludes name = false) :
    takenName? known candidate = none ∨ takenName? known candidate = verdict.duplicate? := by
  cases h with
  | unbuilt built =>
    rw [takenName?, built]
    exact .inl rfl
  -- A name that is held is neither excluded nor unusable, and it cannot be registered again.
  | disabled built excluded =>
    rw [takenName?_of_built built]
    refine .inl (if_neg fun member => ?_)
    simp [(usable _ member).2] at excluded
  | misnamed built wanted refused =>
    rw [takenName?_of_built built]
    refine .inl (if_neg fun member => ?_)
    simp [(usable _ member).1] at refused
  | @duplicate f built wanted checked taken =>
    rw [takenName?_of_built built]
    by_cases member : f.name ∈ known.names
    · exact .inr (if_pos member)
    · exact .inl (if_neg member)
  | registered built wanted checked fresh =>
    rw [takenName?_of_built built]
    exact .inl (if_neg fun member => fresh (grown _ member))

theorem Judged.names (h : Judged exclusions known candidate next verdict) :
    ∀ name ∈ known.names, name ∈ next.names := by
  intro name member
  cases h with
  | registered =>
    rw [Repertoire.names, List.map_append]
    exact List.mem_append_left _ member
  | _ => exact member

/-- Names that are held when a pass begins are held to its end: who brings one is a duplicate. -/
theorem takenNames_sublist {later : Repertoire} (grown : ∀ name ∈ known.names, name ∈ later.names)
    (usable : ∀ name ∈ known.names, Function.checkName name = .ok () ∧
      exclusions.excludes name = false) (candidates : List Candidate) :
    (candidates.filterMap (takenName? known)).Sublist
      ((scan exclusions later candidates).2.filterMap Verdict.duplicate?) := by
  induction candidates generalizing later with
  | nil => exact .slnil
  | cons candidate rest ih =>
    cases judgement : judge exclusions later candidate with
    | mk next verdict =>
      have judged := judged_of_judge judgement
      have ihRest := ih fun name member => judged.names name (grown name member)
      rw [scan_cons judgement, List.filterMap_cons, List.filterMap_cons]
      cases judged.takenName?_cases grown usable with
      | inl free =>
        rw [free]
        cases verdict.duplicate? with
        | none => exact ihRest
        | some name => exact ihRest.cons name
      | inr taken =>
        rw [taken]
        cases verdict.duplicate? with
        | none => exact ihRest
        | some name => exact ihRest.cons_cons name

end Discovery
end Reckoner
