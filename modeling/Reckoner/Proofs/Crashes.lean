import Reckoner.Proofs.Bytewise
import Reckoner.Proofs.Origins
import Reckoner.Proofs.Reports

/-! # Nothing breaks down

Neither a text nor the body of a function breaks an evaluation down.  Read in place, byte by byte,
a text comes to the value or the fault that it has (`Bytewise.evaluate_eq`), as long as the
functions have been inserted, which puts a guard around them.  A body that crashes when it runs, and
a candidate that crashes while it is built, end in one fault and in one entry of a report
(`crashes_contained`).
-/

namespace Reckoner

namespace Bytewise

open Expression (ofChars)
open Text (byteSize depthBound)

/-! ## The outcome is the value or the fault -/

variable {known : Repertoire}

/-- What insertions have stored is guarded. -/
theorem body_of_built (built : known.Built) {f : Function} (member : f ∈ known.functions)
    (args : List Float) : f.body args = .ofExcept (f.invoke args) := by
  induction built with
  | empty => cases member
  | @insert known next added earlier inserted ih =>
    obtain ⟨-, -, rfl⟩ := Repertoire.insert_eq_ok_iff.1 inserted
    obtain member | member := List.mem_append.1 member
    · exact ih member
    · obtain rfl : f = added.guard := by simpa using member
      rw [Function.invoke_guard]
      rfl

theorem opening_not_mem (built : known.Built) : ∀ f ∈ known.functions, '(' ∉ f.name.toList :=
  fun f member hopen => (Function.plain_of_checkName (built.checked f member) _ hopen).1 rfl

theorem divideAt_eq {text left right : List Char} {o : Operator}
    (whole : left ++ o.char :: right = text) (inside : byteSize left < byteSize text)
    {first second : { part : List Char // byteSize part < byteSize text } → Outcome Fault Float}
    {front behind : Expression}
    (hfirst : ∀ shorter, first ⟨left, shorter⟩ = .ofExcept (front.eval known))
    (hsecond : ∀ shorter, second ⟨right, shorter⟩ = .ofExcept (behind.eval known)) :
    divideAt ⟨byteSize left, inside⟩ o first second =
      .ofExcept ((Expression.binary o front behind).eval known) := by
  have ascii := operatorChar_ascii o
  have wholeLeft : [] ++ left ++ o.char :: right = text := whole
  have wholeRight : (left ++ [o.char]) ++ right ++ [] = text := by simpa using whole
  have size : byteSize left + 1 + byteSize right = byteSize text := by
    rw [← whole, Text.byteSize_append, Text.byteSize_cons_ascii ascii, Nat.add_assoc]
  have behindOperator := Text.byteSize_concat_ascii left ascii
  obtain ⟨_, sliceLeft⟩ := Text.slice_of_parts wholeLeft Text.byteSize_nil (Nat.zero_add _)
  obtain ⟨_, sliceRight⟩ := Text.slice_of_parts wholeRight behindOperator size
  rw [divideAt]
  simp only [sliceLeft, Outcome.returned_bind]
  rw [hfirst, Expression.eval]
  cases front.eval known with
  | error fault => rfl
  | ok x =>
    simp only [Outcome.ofExcept_ok, sliceRight, Outcome.returned_bind]
    rw [hsecond]
    cases behind.eval known <;> rfl

theorem mapM_eq {inner : List Char}
    {texts : List { arg : List Char // byteSize arg ≤ byteSize inner }}
    {f : { arg : List Char // byteSize arg ≤ byteSize inner } → Outcome Fault Float}
    (h : ∀ arg ∈ texts, f arg = .ofExcept ((ofChars arg.val).eval known)) :
    texts.mapM f =
      .ofExcept (Expression.evalAll known ((texts.map Subtype.val).map ofChars)) := by
  induction texts with
  | nil => rfl
  | cons arg texts ih =>
    rw [List.mapM_cons, h arg (List.mem_cons_self ..),
      ih fun other member => h other (List.mem_cons_of_mem _ member)]
    rw [List.map_cons, List.map_cons, Expression.evalAll]
    cases (ofChars arg.val).eval known with
    | error fault => rfl
    | ok x => cases Expression.evalAll known _ <;> rfl

theorem byteSize_of_call? {text name inner : List Char}
    (h : Expression.call? text = some (name, inner)) : byteSize inner < byteSize text := by
  have := Text.byteSize_lt_cons '(' (inner ++ [')'])
  rw [← Expression.call?_eq_some h, Text.byteSize_append]
  rw [Text.byteSize_append] at this
  omega

theorem getLast?_call (name inner : List Char) :
    (name ++ '(' :: (inner ++ [')'])).getLast? = some ')' := by
  rw [← List.cons_append, ← List.append_assoc, List.getLast?_concat]

theorem exists_call {text : List Char} (opens : '(' ∈ text) (closes : text.getLast? = some ')') :
    ∃ name inner, '(' ∉ name ∧ text = name ++ '(' :: (inner ++ [')']) := by
  obtain ⟨name, rest, rfl, hname⟩ := List.eq_append_cons_of_mem opens
  rw [List.getLast?_append_of_ne_nil _ (List.cons_ne_nil _ _)] at closes
  cases List.eq_nil_or_concat' rest with
  | inl empty =>
    rw [empty] at closes
    cases closes
  | inr last =>
    obtain ⟨inner, c, rfl⟩ := last
    rw [← List.cons_append, List.getLast?_concat] at closes
    cases closes
    exact ⟨name, inner, hname, rfl⟩

/-- The name of a call stands in front of the first parenthesis. -/
theorem not_mem_of_call? {text name inner : List Char}
    (h : Expression.call? text = some (name, inner)) : '(' ∉ name := by
  have whole := Expression.call?_eq_some h
  have opens : '(' ∈ text := by simp [← whole]
  have closes : text.getLast? = some ')' := by rw [← whole, getLast?_call]
  obtain ⟨first, _, hfirst, same⟩ := exists_call opens closes
  rw [same, Expression.call?_append hfirst] at h
  cases h
  exact hfirst

theorem primary_of_group (functions : Repertoire) (inner : List Char) :
    primary functions ('(' :: (inner ++ [')'])) = sum functions inner := by
  have opening : byteSize ['('] = 1 := Text.byteSize_cons_ascii (by decide) []
  have size : 1 + byteSize inner + 1 = byteSize ('(' :: (inner ++ [')'])) := by
    rw [Text.byteSize_cons_ascii (by decide), Text.byteSize_concat_ascii inner (by decide),
      Nat.add_assoc]
  have whole : ['('] ++ inner ++ [')'] = '(' :: (inner ++ [')']) := rfl
  obtain ⟨sized, hslice⟩ := Text.slice_of_parts whole opening rfl
  rw [primary, if_pos ⟨by omega, rfl, getLast?_call [] inner⟩, Text.back_of_add size,
    Outcome.returned_bind, hslice, Outcome.returned_bind]

theorem primary_of_not_group {text : List Char} (functions : Repertoire)
    (h : text.head? = some '(' → text.getLast? ≠ some ')') :
    primary functions text = .ofExcept (Literal.parse text) := by
  rw [primary, if_neg fun group => h group.2.1 group.2.2]

/-- A call is evaluated as soon as its arguments are. -/
theorem call_of_known (built : known.Built) {name inner : List Char} (hname : '(' ∉ name)
    {f : Function} (found : known.get? (String.ofList name) = some f)
    (small : byteSize inner < depthBound)
    (parts : ∀ part, byteSize part ≤ byteSize inner →
      sum known part = .ofExcept ((ofChars part).eval known)) :
    call known (name ++ '(' :: (inner ++ [')'])) = .ofExcept
      ((Expression.call name ((Expression.splitArguments inner).map ofChars)).eval known) := by
  -- Behind the name stands at least the last parenthesis, so that going back by one byte is safe.
  have size := Text.byteSize_concat_ascii inner (c := ')') (by decide)
  have whole : [] ++ inner ++ [')'] = inner ++ [')'] := rfl
  obtain ⟨shorter, hcallee⟩ := callee?_eq (opening_not_mem built) hname (inner ++ [')'])
  obtain ⟨sized, hslice⟩ := Text.slice_of_parts whole Text.byteSize_nil (Nat.zero_add _)
  obtain ⟨texts, hsplit, hpieces⟩ := splitArguments_eq small
  have lookup : known.functions.find? (fun f => f.name = String.ofList name) = some f := found
  have args : texts.mapM (fun arg => sum known arg.val) = _ :=
    mapM_eq fun arg _ => parts arg.val arg.property
  rw [call, if_pos (getLast?_call name inner), hcallee, lookup, Option.map_some]
  simp only [Text.back_of_add size.symm, Outcome.returned_bind, hslice, hsplit]
  rw [args, hpieces, Expression.eval_call_of_known found]
  cases Expression.evalAll known _ with
  | error fault => rfl
  | ok values =>
    have member := (Repertoire.mem_of_get? found).1
    rw [Outcome.ofExcept_ok, Outcome.returned_bind, body_of_built built member]
    cases accepted : f.arity.accepts values.length with
    | true => rfl
    | false => exact congrArg Outcome.ofExcept (Function.invoke_of_refused accepted).symm

/-- What looks like a call of no function is a group, or else not even a number. -/
theorem call_of_unknown (built : known.Built) {name inner : List Char} (hname : '(' ∉ name)
    (unknown : known.get? (String.ofList name) = none)
    (part : sum known inner = .ofExcept ((ofChars inner).eval known)) :
    call known (name ++ '(' :: (inner ++ [')'])) =
      .ofExcept ((Expression.ofOperand (name ++ '(' :: (inner ++ [')']))).eval known) := by
  have called := Expression.call?_append hname inner
  have missing : callee? known.functions (name ++ '(' :: (inner ++ [')'])) = none := by
    obtain ⟨_, hcallee⟩ := callee?_eq (opening_not_mem built) hname (inner ++ [')'])
    rw [hcallee]
    exact congrArg _ unknown
  rw [call, if_pos (getLast?_call name inner), missing]
  dsimp only
  cases name with
  | nil =>
    rw [Expression.ofOperand_of_group called, Expression.eval, ← part]
    exact primary_of_group known inner
  | cons c name =>
    -- The text begins with no parenthesis, so it is read as a literal, which holds none.
    have head : ∀ {rest}, (c :: name ++ rest).head? ≠ some '(' := by
      intro rest h
      simp at h
      simp [h] at hname
    have chars := Expression.chars_ofOperand (c :: name ++ '(' :: (inner ++ [')']))
    rw [Expression.ofOperand_of_call called (List.cons_ne_nil _ _)] at chars ⊢
    rw [primary_of_not_group known fun h => absurd h head, Expression.eval_call_of_unknown unknown,
      chars]

theorem call_of_none (functions : Repertoire) {text : List Char}
    (none : Expression.call? text = none) :
    call functions text = .ofExcept ((Expression.ofOperand text).eval functions) := by
  rw [Expression.ofOperand_of_none none, Expression.eval, call]
  split
  · next closes =>
    have notOpens : '(' ∉ text := by
      intro opens
      obtain ⟨name, inner, hname, rfl⟩ := exists_call opens closes
      rw [Expression.call?_append hname inner] at none
      cases none
    have head : text.head? ≠ some '(' := fun h => notOpens (List.mem_of_head? h)
    rw [callee?_of_not_mem notOpens, primary_of_not_group functions fun h => absurd h head]
  · next closes => exact primary_of_not_group functions fun _ => closes

/-- Calls, groups and literals, given the texts in them. -/
theorem call_eq (built : known.Built) {text : List Char} (small : byteSize text < depthBound)
    (parts : ∀ part, byteSize part < byteSize text →
      sum known part = .ofExcept ((ofChars part).eval known)) :
    call known text = .ofExcept ((Expression.ofOperand text).eval known) := by
  cases called : Expression.call? text with
  | none => exact call_of_none known called
  | some call =>
    obtain ⟨name, inner⟩ := call
    have shorter := byteSize_of_call? called
    have hname := not_mem_of_call? called
    obtain rfl := Expression.call?_eq_some called
    cases found : known.get? (String.ofList name) with
    | none => exact call_of_unknown built hname found (parts inner shorter)
    | some f =>
      have nonempty : name ≠ [] := by
        have valid := built.checked f (Repertoire.mem_of_get? found).1
        rw [(Repertoire.mem_of_get? found).2, Function.checkName_eq_ok_iff] at valid
        simpa using valid.1
      rw [Expression.ofOperand_of_call called nonempty]
      exact call_of_known built hname found (Nat.lt_trans shorter small) fun part le =>
        parts part (Nat.lt_of_le_of_lt le shorter)

-- A part is shorter than its text, and a text that is handed on goes to a later stage.
mutual

theorem sum_eq (built : known.Built) (text : List Char) (small : byteSize text < depthBound) :
    sum known text = .ofExcept ((ofChars text).eval known) := by
  have located := located_splitSum? small
  rw [sum]
  cases found : Expression.splitSum? text with
  | none =>
    rw [found] at located
    rw [located, Outcome.returned_bind, Expression.ofChars_of_none found]
    exact product_eq built text small
  | some division =>
    obtain ⟨left, o, right⟩ := division
    have whole := (Expression.splitSum?_eq_some found).1
    rw [found] at located
    obtain ⟨inside, located⟩ := located
    rw [located, Outcome.returned_bind, Expression.ofChars_of_some found]
    exact divideAt_eq whole inside
      (fun shorter => sum_eq built left (Nat.lt_trans shorter small))
      (fun shorter => product_eq built right (Nat.lt_trans shorter small))
termination_by (byteSize text, 3)

theorem product_eq (built : known.Built) (text : List Char) (small : byteSize text < depthBound) :
    product known text = .ofExcept ((Expression.ofProduct text).eval known) := by
  have located := located_splitProduct? small
  rw [product]
  cases found : Expression.splitProduct? text with
  | none =>
    rw [found] at located
    rw [located, Outcome.returned_bind, Expression.ofProduct_of_none found]
    exact signed_eq built text small
  | some division =>
    obtain ⟨left, o, right⟩ := division
    have whole := (Expression.splitProduct?_eq_some found).1
    rw [found] at located
    obtain ⟨inside, located⟩ := located
    rw [located, Outcome.returned_bind, Expression.ofProduct_of_some found]
    exact divideAt_eq whole inside
      (fun shorter => product_eq built left (Nat.lt_trans shorter small))
      (fun shorter => signed_eq built right (Nat.lt_trans shorter small))
termination_by (byteSize text, 2)

theorem signed_eq (built : known.Built) (text : List Char) (small : byteSize text < depthBound) :
    signed known text = .ofExcept ((Expression.ofSigned text).eval known) := by
  by_cases begins : ∃ negative rest, text = Expression.signChar negative :: rest
  · obtain ⟨negative, rest, rfl⟩ := begins
    have shorter := Text.byteSize_lt_cons (Expression.signChar negative) rest
    have ih := signed_eq built rest (Nat.lt_trans shorter small)
    rw [Expression.ofSigned_cons, Expression.eval]
    cases negative with
    | false =>
      refine Eq.trans ?_ (ih.trans ?_)
      · rw [Expression.signChar, signed.eq_def]
        rfl
      · cases (Expression.ofSigned rest).eval known <;> rfl
    | true =>
      rw [Expression.signChar, signed.eq_def]
      simp only [if_true]
      rw [ih]
      cases (Expression.ofSigned rest).eval known <;> rfl
  · have head := Expression.head_of_not_signed begins
    rw [Expression.ofSigned_of_head head, signed.eq_def]
    split
    · exact absurd rfl (head '+' rfl).1
    · exact absurd rfl (head '-' rfl).2
    · exact call_eq built small fun part shorter =>
        sum_eq built part (Nat.lt_trans shorter small)
termination_by (byteSize text, 1)

end

/-- Over guarded functions nothing breaks down: what comes out is what the text is worth. -/
theorem evaluate_eq (built : known.Built) (text : String) :
    evaluate known text = .ofExcept (known.evaluate text) := by
  by_cases fits : (Text.strip text.toList).length ≤ Expression.lengthLimit
  · have small : byteSize (Text.strip text.toList) < depthBound := by
      -- A text within the limit has too few bytes for a depth that outgrows the counter.
      have := Text.byteSize_le (Text.strip text.toList)
      rw [Expression.lengthLimit] at fits
      rw [depthBound]
      omega
    rw [Repertoire.evaluate_of_fits known fits, ← sum_eq built _ small]
    exact if_neg (Nat.not_lt.2 fits)
  · have long := Nat.lt_of_not_le fits
    rw [Repertoire.evaluate_of_long known long]
    exact if_pos long

/-- A function that nobody guards breaks the evaluation down with itself. -/
example :
    let broken : Function := { name := "f", arity := .atLeast 0, body := fun _ => .crashed none }
    evaluate ⟨[broken]⟩ "(f())" = .crashed none := by
  cbv

end Bytewise

/-! ## Bodies that crash -/

/-- A body that runs and crashes makes the evaluation fail, in the name of its function. -/
theorem Repertoire.evaluate_of_crashed {added : List Function} {known : Repertoire}
    (inserted : empty.insertAll added = .ok known) {text : String} {f : Function}
    (member : f ∈ added) {args : List Float} (ran : ⟨f.name, args⟩ ∈ known.bodyRuns text)
    {note : Option String} (crashed : f.body args = .crashed note) :
    known.evaluate text =
      .error (.invocationFailure f.name ("panicked: " ++ note.getD "unknown panic")) := by
  have found := get?_of_insertAll inserted member
  obtain ⟨g, inKnown, sameName, accepted⟩ := due_of_mem_bodyRuns _ ran
  -- The function that ran is the one that was added.
  have same := (Built.insertAll .empty inserted).get?_of_mem inKnown
  rw [sameName, found] at same
  cases same
  have taken : f.arity.accepts args.length = true := accepted
  have failed : f.guard.invoke args = .error (Function.crashFault f.name note) := by
    rw [Function.invoke_guard, Function.invoke, if_pos taken, crashed]
  exact evaluate_of_failed_run found failed ran

/-! ## Candidates that crash -/

/-- A candidate builds no function but fails or crashes, and the fault that this is. -/
inductive Candidate.Breaks (candidate : Candidate) : Fault → Prop where
  | direct {fault : Fault} (recipe : candidate.recipe = .direct (.failed fault)) :
      Breaks candidate fault
  | annotated {fault : Fault} (recipe : candidate.recipe = .annotated (.failed fault)) :
      Breaks candidate fault
  | directCrash {note : Option String} (recipe : candidate.recipe = .direct (.crashed note)) :
      Breaks candidate (.configuration candidate.label
        ("instantiation panicked: " ++ note.getD "unknown panic"))
  | annotatedCrash {note : Option String} (recipe : candidate.recipe = .annotated (.crashed note)) :
      Breaks candidate (.configuration candidate.label
        ("instantiation panicked: " ++ note.getD "unknown panic"))

theorem Candidate.Breaks.instantiate {candidate : Candidate} {fault : Fault}
    (breaks : candidate.Breaks fault) : candidate.instantiate = .error fault := by
  cases breaks with
  | direct recipe => rw [Candidate.instantiate, recipe]
  | annotated recipe => rw [Candidate.instantiate, recipe]
  | directCrash recipe => rw [Candidate.instantiate, recipe]; rfl
  | annotatedCrash recipe => rw [Candidate.instantiate, recipe]; rfl

namespace Registry

open Discovery (Report)

/-- The report with a single entry, that of a candidate that could not be loaded. -/
def failureEntry (candidate : Candidate) (fault : Fault) : Report :=
  ⟨[], [], [], [⟨candidate.label, fault.kind, fault.message⟩]⟩

theorem discoverFrom_breaks (registry : Registry) (start : Repertoire)
    (earlier later : List Candidate) {candidate : Candidate} {fault : Fault}
    (breaks : candidate.Breaks fault) :
    Lacks (failureEntry candidate fault) ((registry.offering earlier).discoverFrom start).2
      ((registry.offering (earlier ++ candidate :: later)).discoverFrom start)
      ((registry.offering (earlier ++ later)).discoverFrom start) := by
  have judgement : Discovery.judge registry.exclusions
      (Discovery.scan registry.exclusions start earlier).1 candidate = (_, _) :=
    Discovery.judge_of_judged (.unbuilt breaks.instantiate)
  have placed : ((registry.offering (earlier ++ candidate :: later)).verdictsFrom start)[
      earlier.length]? = some (.failed (.ofFault candidate.label fault)) := by
    rw [verdictsFrom_offering, Discovery.scan_middle later judgement,
      ← Discovery.length_scan registry.exclusions start earlier]
    simp
  exact discoverFrom_lacks registry start placed rfl

end Registry

/-- Whatever the text and whatever the bodies do, an evaluation in place comes to the value or the
fault of the text, so that no cut falls inside a character or behind an end; a body that runs and
crashes is the fault.  Whatever the candidates do, a pass ends, and one that fails or crashes leaves
one entry in the report and nothing else. -/
theorem crashes_contained {added : List Function} {known : Repertoire}
    (inserted : Repertoire.empty.insertAll added = .ok known) (text : String) :
    Bytewise.evaluate known text = .ofExcept (known.evaluate text) ∧
    (∀ note, Bytewise.evaluate known text ≠ .crashed note) ∧
    (∀ f ∈ added, ∀ (args : List Float) (note : Option String),
      ⟨f.name, args⟩ ∈ known.bodyRuns text → f.body args = .crashed note →
      known.evaluate text =
        .error (.invocationFailure f.name ("panicked: " ++ note.getD "unknown panic"))) ∧
    ∀ (registry : Registry) (earlier later : List Candidate) (candidate : Candidate)
      (fault : Fault), candidate.Breaks fault →
      let whole := registry.offering (earlier ++ candidate :: later)
      let others := registry.offering (earlier ++ later)
      let front := registry.offering earlier
      let entry := Registry.failureEntry candidate fault
      Registry.Lacks entry front.discover.2 whole.discover others.discover ∧
        Registry.Lacks entry front.reload.2 whole.reload others.reload := by
  have same := Bytewise.evaluate_eq (.insertAll .empty inserted) text
  refine ⟨same, ?_, ?_, ?_⟩
  · intro note
    rw [same]
    exact Outcome.ofExcept_ne_crashed _ note
  · intro f member args note ran crashed
    exact Repertoire.evaluate_of_crashed inserted member ran crashed
  · intro registry earlier later candidate fault breaks
    exact ⟨Registry.discoverFrom_breaks registry registry.functions earlier later breaks,
      Registry.discoverFrom_breaks registry .empty earlier later breaks⟩

/-- A name of more bytes than characters, a body that crashes with a text, and a candidate that
crashes without one. -/
theorem crashes_contained_long_name :
    let boom : Function :=
      { name := "böom", arity := .atLeast 0, body := fun _ => .crashed (some "kaboom") }
    let known : Repertoire := ⟨[boom.guard]⟩
    let fault : Fault := .invocationFailure "böom" "panicked: kaboom"
    let first : Candidate := ⟨"first", .direct (.returned (.counter "f"))⟩
    let broken : Candidate := ⟨"broken", .annotated (.crashed none)⟩
    let third : Candidate := ⟨"third", .direct (.failed (.duplicateName "f"))⟩
    let whole := (Registry.create .empty {}).offering ([first] ++ broken :: [third])
    let others := (Registry.create .empty {}).offering ([first] ++ [third])
    let entry : Fault := .configuration "broken" "instantiation panicked: unknown panic"
    Repertoire.empty.insertAll [boom] = .ok known ∧ ⟨"böom", []⟩ ∈ known.bodyRuns "böom()" ∧
      Bytewise.evaluate known "böom()" = .failed fault ∧
      broken.Breaks entry ∧
      whole.discover.2.failures.head? = some ⟨"broken", .configurationError, entry.message⟩ ∧
      others.reload.1.functions = whole.reload.1.functions := by
  intro boom known fault first broken third whole others entry
  have checked : Function.checkName "böom" = .ok () := rfl
  have inserted : Repertoire.empty.insertAll [boom] = .ok known := by
    rw [Repertoire.insertAll, List.foldlM_cons,
      Repertoire.insert_eq_ok_iff.2 ⟨checked, List.not_mem_nil, rfl⟩]
    rfl
  have written : callText "böom" [] = "böom()" := by decide
  have ran : ⟨"böom", []⟩ ∈ known.bodyRuns "böom()" := by
    have built : known.Built := .insertAll .empty inserted
    have member : boom.guard ∈ known.functions := List.mem_cons_self ..
    have read : Expression.ofChars (Text.strip "böom()".toList) = .call "böom".toList [] := by
      rw [← written]
      exact Repertoire.ofChars_callText built member (by decide) .nil
    have found : known.get? (String.ofList "böom".toList) = some boom.guard :=
      built.get?_of_mem member
    rw [Repertoire.bodyRuns_of_fits (by decide), read]
    exact (Expression.mem_bodyRuns_call found).2 (.inr ⟨[], rfl, rfl, rfl⟩)
  have crashes : broken.recipe = .annotated (.crashed none) := rfl
  have breaks : broken.Breaks entry := Candidate.Breaks.annotatedCrash crashes
  obtain ⟨same, -, crashed, passes⟩ := crashes_contained inserted "böom()"
  have evaluated := crashed boom (List.mem_cons_self ..) [] (some "kaboom") ran rfl
  obtain ⟨discovered, reloaded⟩ := passes (.create .empty {}) [first] [third] broken entry breaks
  obtain ⟨after, reported, -⟩ := discovered.reported
  refine ⟨inserted, ran, ?_, breaks, ?_, reloaded.published⟩
  · rw [same, evaluated]
    rfl
  · rw [reported]
    rfl

end Reckoner
