import Reckoner.Proofs.Naming
import Reckoner.Proofs.Reports

/-! # Excluding names

A list of names excludes the fields between its commas, without the blanks around them
(`excludes_ofList_iff`), and it does not matter how a list is padded (`ofList_written`).  For a pass an
excluded name might as well not be offered: whether the exclusions are asked before the candidates
compete for their names, or the functions sorted out afterwards, the same ones are left
(`scan_without`).
-/

namespace Reckoner

namespace Text

/-! ## Fields and blanks -/

/-- The field stands in the text between two separators, or between one of them and an end. -/
def IsField (separator : Char) (text field : List Char) : Prop :=
  separator ∉ field ∧ ∃ before after, text = before ++ field ++ after ∧
    (before = [] ∨ before.getLast? = some separator) ∧
    (after = [] ∨ after.head? = some separator)

theorem splitOn_eq (separator : Char) (text : List Char) :
    splitOn separator text = text.splitOn separator := by
  induction text with
  | nil => rfl
  | cons c rest ih =>
    have step : splitOn separator (c :: rest) =
        if c = separator then [] :: splitOn separator rest
        else extendFirst c (splitOn separator rest) := rfl
    have nonempty := List.splitOn_ne_nil separator rest
    rw [step, ih, List.splitOn_cons_eq_if_modifyHead]
    simp only [beq_iff_eq]
    -- There is always a first field that the character can go to.
    cases fields : rest.splitOn separator with
    | nil => exact absurd fields nonempty
    | cons first others => rfl

theorem isField_of_mem {separator : Char} {text field : List Char}
    (member : field ∈ text.splitOn separator) : IsField separator text field := by
  induction hsize : text.length using Nat.strong_induction_on generalizing text with
  | _ size ih =>
    by_cases separated : separator ∈ text
    · obtain ⟨first, rest, rfl, plain⟩ := List.eq_append_cons_of_mem separated
      rw [List.splitOn_append_cons_self_of_not_mem plain] at member
      cases member with
      | head => exact ⟨plain, [], separator :: rest, rfl, .inl rfl, .inr rfl⟩
      | tail _ later =>
        have shorter : rest.length < size := by
          simp only [← hsize, List.length_append, List.length_cons]
          omega
        obtain ⟨inner, before, after, rfl, front, behind⟩ := ih _ shorter later rfl
        refine ⟨inner, first ++ separator :: before, after, by simp, .inr ?_, behind⟩
        rw [List.getLast?_append_of_ne_nil _ (List.cons_ne_nil _ _), List.getLast?_cons]
        obtain rfl | last := front
        · rfl
        · rw [last]
          rfl
    · rw [List.splitOn_eq_singleton separated, List.mem_singleton] at member
      subst member
      exact ⟨separated, [], [], by simp, .inl rfl, .inl rfl⟩

/-- The fields of a text are what stands between its separators. -/
theorem mem_splitOn_iff {separator : Char} {text field : List Char} :
    field ∈ splitOn separator text ↔ IsField separator text field := by
  rw [splitOn_eq]
  refine ⟨isField_of_mem, ?_⟩
  rintro ⟨plain, before, after, rfl, front, behind⟩
  -- What stands in front ends with a separator, and what stands behind begins with one.
  have inside : field ∈ (field ++ after).splitOn separator := by
    cases after with
    | nil => simp [List.splitOn_eq_singleton plain]
    | cons c rest =>
      obtain rfl : c = separator := by simpa using behind
      rw [List.splitOn_append_cons_self_of_not_mem plain]
      exact List.mem_cons_self ..
  obtain rfl | last := front
  · exact inside
  · obtain ⟨others, rfl⟩ := List.getLast?_eq_some_iff.1 last
    rw [List.append_assoc, List.append_assoc, List.singleton_append,
      List.splitOn_append_cons_self]
    exact List.mem_append_right _ inside

/-- The word is the text without the blanks around it. -/
structure Trimmed (text word : List Char) : Prop where
  around : ∃ before after, text = before ++ word ++ after ∧ allBlank before = true ∧
    allBlank after = true
  first : ∀ c, word.head? = some c → isBlank c = false
  last : ∀ c, word.getLast? = some c → isBlank c = false

theorem dropWhile_of_head {text : List Char} (first : ∀ c, text.head? = some c → isBlank c = false) :
    text.dropWhile isBlank = text := by
  cases text with
  | nil => rfl
  | cons c rest => exact List.dropWhile_cons_of_neg (by simp [first c rfl])

theorem trim_padded {before word after : List Char} (blankBefore : allBlank before = true)
    (blankAfter : allBlank after = true) (first : ∀ c, word.head? = some c → isBlank c = false)
    (last : ∀ c, word.getLast? = some c → isBlank c = false) :
    trim (before ++ word ++ after) = word := by
  rw [allBlank, List.all_eq_true] at blankBefore blankAfter
  rw [trim, List.append_assoc, List.dropWhile_append_of_pos blankBefore]
  cases word with
  | nil =>
    have nothing : after.dropWhile isBlank = [] := List.dropWhile_eq_nil_iff.2 blankAfter
    simp [nothing]
  | cons c rest =>
    have begins : (c :: rest ++ after).dropWhile isBlank = c :: rest ++ after :=
      dropWhile_of_head fun d same => first d same
    have ends : (c :: rest).reverse.dropWhile isBlank = (c :: rest).reverse :=
      dropWhile_of_head fun d same => last d (by rwa [List.head?_reverse] at same)
    rw [begins, List.reverse_append, List.dropWhile_append_of_pos (by simpa using blankAfter), ends,
      List.reverse_reverse]

theorem head?_dropWhile_not {text : List Char} {c : Char}
    (first : (text.dropWhile isBlank).head? = some c) : isBlank c = false := by
  have := List.head?_dropWhile_not isBlank text
  rw [first] at this
  simpa using this

theorem trimmed_trim (text : List Char) : Trimmed text (trim text) := by
  let rest := text.dropWhile isBlank
  have front : text.takeWhile isBlank ++ rest = text := List.takeWhile_append_dropWhile
  have behind : trim text ++ (rest.reverse.takeWhile isBlank).reverse = rest := by
    rw [trim, ← List.reverse_append, List.takeWhile_append_dropWhile, List.reverse_reverse]
  constructor
  · refine ⟨text.takeWhile isBlank, (rest.reverse.takeWhile isBlank).reverse, ?_,
      List.all_takeWhile, ?_⟩
    · rw [List.append_assoc, behind, front]
    · simp [allBlank, List.all_reverse, List.all_takeWhile]
  · intro c first
    have begins : rest.head? = some c := by
      rw [← behind, List.head?_append, first]
      rfl
    exact head?_dropWhile_not begins
  · intro c last
    rw [trim, List.getLast?_reverse] at last
    exact head?_dropWhile_not last

theorem trim_eq_iff {text word : List Char} : trim text = word ↔ Trimmed text word := by
  constructor
  · rintro rfl
    exact trimmed_trim text
  · rintro ⟨⟨before, after, rfl, blankBefore, blankAfter⟩, first, last⟩
    exact trim_padded blankBefore blankAfter first last

end Text

/-! ## Lists of names -/

namespace Exclusions

/-- Fields that are blank or hold a name, and the names in their order. -/
inductive Written : List String → List String → Prop where
  | nil : Written [] []
  | blank {fields names : List String} {field : String} (blank : Text.allBlank field.toList = true)
      (rest : Written fields names) : Written (field :: fields) names
  | name {fields names : List String} {before name after : String}
      (valid : Function.checkName name = .ok ()) (blankBefore : Text.allBlank before.toList = true)
      (blankAfter : Text.allBlank after.toList = true) (rest : Written fields names) :
      Written ((before ++ name ++ after) :: fields) (name :: names)

theorem excludes_ofList_iff {text name : String} : (ofList text).excludes name = true ↔
    name ≠ "" ∧ ∃ field, Text.IsField ',' text.toList field ∧ Text.Trimmed field name.toList := by
  simp only [excludes, ofList, List.contains_iff_mem, List.mem_map, List.mem_filter,
    Text.mem_splitOn_iff, Text.trim_eq_iff, decide_eq_true_eq]
  constructor
  · rintro ⟨word, ⟨⟨field, inText, trimmed⟩, nonempty⟩, rfl⟩
    refine ⟨?_, field, inText, by rwa [String.toList_ofList]⟩
    simpa using nonempty
  · rintro ⟨nonempty, field, inText, trimmed⟩
    refine ⟨name.toList, ⟨⟨field, inText, trimmed⟩, ?_⟩, String.ofList_toList⟩
    simpa using nonempty

theorem comma_not_mem_blank {text : List Char} (blank : Text.allBlank text = true) : ',' ∉ text := by
  intro member
  have := List.all_eq_true.1 blank ',' member
  revert this
  decide

theorem Written.plain {fields names : List String} (written : Written fields names) :
    ∀ field ∈ fields, ',' ∉ field.toList := by
  induction written with
  | nil => simp
  | blank blank rest ih =>
    intro field member
    cases member with
    | head => exact comma_not_mem_blank blank
    | tail _ later => exact ih field later
  | name valid blankBefore blankAfter rest ih =>
    intro field member
    cases member with
    | head =>
      have inName : ',' ∉ _ := fun member => (Function.plain_of_checkName valid _ member).2.2 rfl
      simp [comma_not_mem_blank blankBefore, comma_not_mem_blank blankAfter, inName]
    | tail _ later => exact ih field later

theorem trimmed_name {before name after : String} (valid : Function.checkName name = .ok ())
    (blankBefore : Text.allBlank before.toList = true)
    (blankAfter : Text.allBlank after.toList = true) :
    Text.trim (before ++ name ++ after).toList = name.toList := by
  have solid : ∀ c ∈ name.toList, Text.isBlank c = false := by
    intro c member
    have := (Function.checkName_eq_ok_iff.1 valid).2 c member
    simp [Function.isNameChar] at this
    exact this.1
  rw [String.toList_append, String.toList_append]
  exact Text.trim_padded blankBefore blankAfter (fun c first => solid c (List.mem_of_head? first))
    (fun c last => solid c (List.mem_of_getLast? last))

/-- The names are what is left of the fields. -/
theorem Written.trimmed {fields names : List String} (written : Written fields names) :
    ((fields.map fun field => Text.trim field.toList).filter (· ≠ [])).map String.ofList = names := by
  induction written with
  | nil => rfl
  | @blank fields names field blank rest ih =>
    have nothing : Text.trim field.toList = [] :=
      Text.trim_eq_iff.2 ⟨⟨[], _, rfl, rfl, blank⟩, by simp, by simp⟩
    rwa [List.map_cons, nothing]
  | name valid blankBefore blankAfter rest ih =>
    have nonempty := (Function.checkName_eq_ok_iff.1 valid).1
    rw [List.map_cons, trimmed_name valid blankBefore blankAfter, List.filter_cons,
      if_pos (decide_eq_true nonempty), List.map_cons, String.ofList_toList, ih]

theorem ofList_written {fields names : List String} (written : Written fields names) :
    ofList (",".intercalate fields) = ⟨names⟩ := by
  have joined : (",".intercalate fields).toList = [','].intercalate (fields.map String.toList) := by
    simp
  have plain : ∀ field ∈ fields.map String.toList, ',' ∉ field := by
    simpa using written.plain
  rw [ofList, joined, Text.splitOn_eq]
  cases fields with
  | nil =>
    cases written
    rfl
  | cons field others =>
    rw [List.splitOn_intercalate ',' plain (List.cons_ne_nil _ _), List.map_map]
    exact congrArg Exclusions.mk written.trimmed

end Exclusions

/-! ## Passes with and without exclusions -/

/-- The functions that are not excluded. -/
def Repertoire.without (known : Repertoire) (exclusions : Exclusions) : Repertoire :=
  ⟨known.functions.filter fun f => !exclusions.excludes f.name⟩

theorem Repertoire.mem_names_without (known : Repertoire) {exclusions : Exclusions} {name : String}
    (wanted : exclusions.excludes name = false) :
    name ∈ (known.without exclusions).names ↔ name ∈ known.names := by
  simp only [names, without, List.mem_map, List.mem_filter]
  constructor
  · rintro ⟨f, ⟨member, -⟩, same⟩
    exact ⟨f, member, same⟩
  · rintro ⟨f, member, rfl⟩
    exact ⟨f, ⟨member, by simp [wanted]⟩, rfl⟩

theorem Repertoire.get?_without {known : Repertoire} {exclusions : Exclusions} {name : String}
    (wanted : exclusions.excludes name = false) :
    (known.without exclusions).get? name = known.get? name := by
  rw [get?, without, List.find?_filter, get?]
  congr 1
  funext f
  by_cases same : f.name = name
  · simp [same, wanted]
  · simp [same]

namespace Discovery

variable {exclusions : Exclusions} {known : Repertoire}

/-- An excluded candidate is left out, and the others are judged as if it had never been there. -/
theorem judge_without (exclusions : Exclusions) (known : Repertoire) (candidate : Candidate) :
    (judge exclusions (known.without exclusions) candidate).1 =
      (judge {} known candidate).1.without exclusions := by
  cases judgement : judge {} known candidate with
  | mk next verdict =>
    cases built : candidate.instantiate with
    | error fault =>
      rw [judge_of_judged (.unbuilt built)] at judgement
      cases judgement
      rw [judge_of_judged (.unbuilt built)]
    | ok f =>
      have judged := judged_of_judge judgement
      cases excluded : exclusions.excludes f.name with
      | true =>
        rw [judge_of_judged (.disabled built excluded)]
        -- Without the exclusions the function may come in, and it is sorted out afterwards.
        cases judged.next_cases with
        | inl kept => rw [kept.1]
        | inr added =>
          obtain ⟨g, same, -, inserted, -⟩ := added
          obtain rfl : f = g := by simpa [built] using same
          obtain ⟨-, -, rfl⟩ := Repertoire.insert_eq_ok_iff.1 inserted
          simp [Repertoire.without, excluded]
      | false =>
        have held := Repertoire.mem_names_without known excluded
        cases judged with
        | unbuilt failed => simp [built] at failed
        | disabled _ impossible => cases impossible
        | misnamed same _ refused =>
          obtain rfl : f = _ := by simpa [built] using same
          rw [judge_of_judged (.misnamed built excluded refused)]
        | duplicate same _ checked taken =>
          obtain rfl : f = _ := by simpa [built] using same
          rw [judge_of_judged (.duplicate built excluded checked (held.2 taken))]
        | registered same _ checked fresh =>
          obtain rfl : f = _ := by simpa [built] using same
          rw [judge_of_judged (.registered built excluded checked fun taken => fresh (held.1 taken))]
          simp [Repertoire.without, excluded]

theorem scan_without (exclusions : Exclusions) (known : Repertoire) (candidates : List Candidate) :
    (scan exclusions (known.without exclusions) candidates).1 =
      (scan {} known candidates).1.without exclusions := by
  induction candidates generalizing known with
  | nil => rfl
  | cons candidate rest ih =>
    have step := judge_without exclusions known candidate
    cases judgement : judge {} known candidate with
    | mk next verdict =>
      cases excluding : judge exclusions (known.without exclusions) candidate with
      | mk left other =>
        rw [judgement, excluding] at step
        rw [scan_cons judgement, scan_cons excluding, show left = _ from step, ih]

/-- None of the functions is excluded. -/
def Unexcluded (exclusions : Exclusions) (known : Repertoire) : Prop :=
  ∀ name ∈ known.names, exclusions.excludes name = false

theorem scan_unexcluded (clean : Unexcluded exclusions known) (candidates : List Candidate) :
    Unexcluded exclusions (scan exclusions known candidates).1 := by
  obtain ⟨more, grown, -, offered⟩ := scan_grows exclusions known candidates
  intro name member
  rw [Repertoire.names, grown, List.map_append] at member
  obtain member | member := List.mem_append.1 member
  · exact clean name member
  · obtain ⟨stored, added, rfl⟩ := List.mem_map.1 member
    obtain ⟨candidate, -, f, -, wanted, rfl⟩ := offered stored added
    exact wanted

end Discovery

namespace Registry

open Discovery (Unexcluded)

/-- The registry with other exclusions. -/
def excluding (registry : Registry) (exclusions : Exclusions) : Registry :=
  { registry with exclusions := exclusions }

theorem reload_excluding (registry : Registry) (exclusions : Exclusions) :
    (registry.excluding exclusions).reload.1.functions =
      (registry.excluding {}).reload.1.functions.without exclusions :=
  Discovery.scan_without exclusions .empty registry.catalogue.candidates

theorem step_unexcluded {registry : Registry} {step : Step} (manual : ∀ f, step ≠ .register f)
    (clean : Unexcluded registry.exclusions registry.functions) :
    Unexcluded registry.exclusions (registry.step step).functions := by
  cases step with
  | install _ | uninstall _ | vary _ => exact clean
  | discover => exact Discovery.scan_unexcluded clean registry.catalogue.candidates
  | reload => exact Discovery.scan_unexcluded (by simp [Unexcluded]) registry.catalogue.candidates
  | register f => exact absurd rfl (manual f)

theorem run_unexcluded {registry : Registry} {steps : List Step}
    (manual : ∀ f, .register f ∉ steps)
    (clean : Unexcluded registry.exclusions registry.functions) :
    Unexcluded registry.exclusions (registry.run steps).functions := by
  induction steps generalizing registry with
  | nil => exact clean
  | cons first rest ih =>
    have kept := step_exclusions registry first
    have next := step_unexcluded (fun f same => manual f (same ▸ List.mem_cons_self ..)) clean
    rw [run_cons, ← kept]
    exact ih (fun f member => manual f (List.mem_cons_of_mem _ member)) (by rwa [kept])

/-- A list excludes its fields without the blanks around them, and blank fields exclude nothing,
however the list is padded.  A reload publishes what it would publish without exclusions, less the
functions of excluded names, and as long as nothing is registered by hand, no excluded name is ever
published. -/
theorem exclusions_exact :
    (∀ text name : String, (Exclusions.ofList text).excludes name = true ↔
      name ≠ "" ∧ ∃ field, Text.IsField ',' text.toList field ∧ Text.Trimmed field name.toList) ∧
    (∀ fields names : List String, Exclusions.Written fields names →
      Exclusions.ofList (",".intercalate fields) = ⟨names⟩) ∧
    (∀ (registry : Registry) (exclusions : Exclusions),
      let published := (registry.excluding exclusions).reload.1.functions
      let everything := (registry.excluding {}).reload.1.functions
      published.functions = everything.functions.filter (fun f => !exclusions.excludes f.name) ∧
        ∀ name, exclusions.excludes name = false →
          published.get? name = everything.get? name) ∧
    ∀ (catalogue : Catalogue) (exclusions : Exclusions) (steps : List Step),
      (∀ f, .register f ∉ steps) →
        ∀ name ∈ ((create catalogue exclusions).run steps).functions.names,
          exclusions.excludes name = false := by
  refine ⟨?_, ?_, ?_, ?_⟩
  · exact fun _ _ => Exclusions.excludes_ofList_iff
  · exact fun _ _ => Exclusions.ofList_written
  · intro registry exclusions published everything
    have left : published = everything.without exclusions := reload_excluding registry exclusions
    refine ⟨congrArg Repertoire.functions left, fun name wanted => ?_⟩
    rw [left, Repertoire.get?_without wanted]
  · intro catalogue exclusions steps manual
    have kept : ((create catalogue exclusions).run steps).exclusions = exclusions :=
      run_exclusions _ steps
    have clean : Unexcluded exclusions (create catalogue exclusions).functions := by
      simp [Unexcluded, create]
    exact run_unexcluded manual clean

/-- The second function of an excluded name does not slip in for the first one. -/
theorem exclusions_exact_padded :
    let fields := [" tan", "\u2003", "NPrime\t", ""]
    let exclusions : Exclusions := ⟨["tan", "NPrime"]⟩
    let first : Candidate := ⟨"first", .direct (.returned (.counter "tan"))⟩
    let second : Candidate := ⟨"second", .direct (.returned (.refusing "tan"))⟩
    let third : Candidate := ⟨"third", .direct (.returned (.counter "f"))⟩
    let steps : List Step := [.discover, .install third, .reload, .uninstall "first", .discover]
    let registry := (create ⟨[first, second]⟩ exclusions).run steps
    Exclusions.Written fields ["tan", "NPrime"] ∧
      Exclusions.ofList (",".intercalate fields) = exclusions ∧
      (create ⟨[first, second, third]⟩ exclusions).reload.1.functions.get? "f" =
        some (Function.counter "f").guard ∧
      (∀ f, .register f ∉ steps) ∧ registry.functions.names = ["f"] ∧
      ∀ name ∈ registry.functions.names, exclusions.excludes name = false := by
  intro fields exclusions first second third steps registry
  obtain ⟨-, padded, reloads, runs⟩ := exclusions_exact
  have written : Exclusions.Written fields ["tan", "NPrime"] :=
    @Exclusions.Written.name _ _ " " "tan" "" rfl rfl rfl
      (.blank rfl (@Exclusions.Written.name _ _ "" "NPrime" "\t" rfl rfl rfl (.blank rfl .nil)))
  have manual : ∀ f, .register f ∉ steps := by simp [steps]
  obtain ⟨-, same⟩ := reloads (create ⟨[first, second, third]⟩ exclusions) exclusions
  exact ⟨written, padded _ _ written, (same "f" rfl).trans rfl, manual, rfl,
    runs ⟨[first, second]⟩ exclusions steps manual⟩

end Registry
end Reckoner
