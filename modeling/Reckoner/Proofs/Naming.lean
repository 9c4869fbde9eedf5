import Mathlib.Data.List.Forall2
import Reckoner.Proofs.Acceptance

/-! # Names that can be called

A repertoire refuses only names with blanks, parentheses and commas, and the search for operators
runs before any name is looked up.  Which names can be called is therefore a matter of where their
operators stand (`Callable`), and of nothing that is put between the parentheses: whatever has a
value is `Contained`, so it keeps its operators and its commas to itself.
-/

namespace Reckoner.Expression

open Text (Level Balanced joinCommas)

/-! ## Values and faults of any expression

Here the names of the functions are not restricted: they may hold operators. -/

variable {functions : Repertoire}

mutual

/-- What has a value may be an argument. -/
theorem contained_of_eval (built : functions.Built) : (e : Expression) → {v : Float} →
    e.eval functions = .ok v → Contained e.chars
  | literal text, _, h => contained_of_parse h
  | binary o left right, _, h => by
    rw [Grammar.eval_binary] at h
    obtain ⟨x, hx, hnext⟩ := bind_eq_ok h
    obtain ⟨y, hy, -⟩ := bind_eq_ok hnext
    have hright := contained_append (contained_operator (char_mem_operatorChars o))
      (contained_of_eval built right hy)
    exact contained_append (contained_of_eval built left hx) hright
  | signed negative operand, _, h => by
    rw [Grammar.eval_signed] at h
    obtain ⟨x, hx, -⟩ := bind_eq_ok h
    exact contained_append (contained_operator (signChar_mem_operatorChars negative))
      (contained_of_eval built operand hx)
  | group inner, _, h => by
    rw [eval] at h
    exact contained_group (contained_of_eval built inner h).balanced
  | call name args, _, h => by
    rw [eval] at h
    split at h
    · cases h
    · next f hget =>
      split at h
      · cases h
      · next values hvalues =>
        obtain ⟨member, hname⟩ := Repertoire.mem_of_get? hget
        have plain := Function.plain_of_checkName (built.checked f member)
        rw [hname, String.toList_ofList] at plain
        refine contained_call plain ?_
        intro text hmem
        exact (contained_of_evalAll built args hvalues text hmem).balanced

theorem contained_of_evalAll (built : functions.Built) : (args : List Expression) →
    {values : List Float} → evalAll functions args = .ok values →
    ∀ text ∈ charsOfAll args, Contained text
  | [], _, _ => by
    intro text member
    cases member
  | arg :: args, _, h => by
    rw [evalAll] at h
    split at h
    · cases h
    · next x hx =>
      split at h
      · cases h
      · next xs hxs =>
        intro text member
        cases member with
        | head => exact contained_of_eval built arg hx
        | tail _ member => exact contained_of_evalAll built args hxs text member

end

/-- The fault comes out of a registered function whose call fits into so many characters. -/
def FromCall (functions : Repertoire) (fault : Fault) (length : Nat) : Prop :=
  ∃ f ∈ functions.functions, f.name.length + 2 ≤ length ∧ ∃ values, f.invoke values = .error fault

theorem FromCall.mono {fault : Fault} {length longer : Nat}
    (h : FromCall functions fault length) (hle : length ≤ longer) :
    FromCall functions fault longer := by
  obtain ⟨f, member, hlength, hinvoke⟩ := h
  exact ⟨f, member, Nat.le_trans hlength hle, hinvoke⟩

theorem eval_binary_error {o : Operator} {left right : Expression} {fault : Fault}
    (h : (binary o left right).eval functions = .error fault) :
    left.eval functions = .error fault ∨ right.eval functions = .error fault := by
  rw [eval] at h
  split at h
  · next hleft =>
    cases h
    exact .inl hleft
  · split at h
    · next hright =>
      cases h
      exact .inr hright
    · cases h

theorem eval_signed_error {negative : Bool} {operand : Expression} {fault : Fault}
    (h : (signed negative operand).eval functions = .error fault) :
    operand.eval functions = .error fault := by
  rw [eval] at h
  split at h
  · next hoperand =>
    cases h
    exact hoperand
  · cases h

mutual

/-- Apart from pieces that are no numbers, faults come out of the functions that a text calls. -/
theorem fromCall_of_eval : (e : Expression) → {fault : Fault} →
    e.eval functions = .error fault → fault.kind ≠ .invalidNumber →
    FromCall functions fault e.chars.length
  | literal text, fault, h, hkind => by
    rw [eval, Literal.parse] at h
    split at h
    · cases h
    · cases h
      exact absurd rfl hkind
  | binary o left right, fault, h, hkind => by
    cases eval_binary_error h with
    | inl hleft => exact (fromCall_of_eval left hleft hkind).mono (by simp [chars])
    | inr hright => exact (fromCall_of_eval right hright hkind).mono (by simp [chars]; omega)
  | signed negative operand, fault, h, hkind =>
    (fromCall_of_eval operand (eval_signed_error h) hkind).mono (by simp [chars])
  | group inner, fault, h, hkind => by
    rw [eval] at h
    exact (fromCall_of_eval inner h hkind).mono (by simp [chars]; omega)
  | call name args, fault, h, hkind => by
    rw [eval] at h
    split at h
    · cases h
      exact absurd rfl hkind
    · next f hget =>
      split at h
      · next hargs =>
        cases h
        refine (fromCall_of_evalAll args hargs hkind).mono ?_
        simp [chars]
        omega
      · next values hvalues =>
        obtain ⟨member, hname⟩ := Repertoire.mem_of_get? hget
        refine ⟨f, member, ?_, values, h⟩
        simp [hname, chars]

theorem fromCall_of_evalAll : (args : List Expression) → {fault : Fault} →
    evalAll functions args = .error fault → fault.kind ≠ .invalidNumber →
    FromCall functions fault (joinCommas (charsOfAll args)).length
  | [], fault, h, _ => by
    cases h
  | arg :: args, fault, h, hkind => by
    have hfirst := Text.length_le_of_mem_joinCommas
      (List.mem_cons_self (a := arg.chars) (l := charsOfAll args))
    rw [evalAll] at h
    split at h
    · next harg =>
      cases h
      exact (fromCall_of_eval arg harg hkind).mono hfirst
    · split at h
      · next hargs =>
        cases h
        refine (fromCall_of_evalAll args hargs hkind).mono ?_
        cases args with
        | nil => simp [charsOfAll, joinCommas]
        | cons second others => simp [charsOfAll, joinCommas]; omega
      · cases h

end

/-- A text that is divided, or begins with a sign, has no call in it that takes up all of it. -/
theorem fromCall_of_ofChars {text : List Char} {fault : Fault}
    (h : (ofChars text).eval functions = .error fault) (hkind : fault.kind ≠ .invalidNumber) :
    FromCall functions fault (text.length - 1) ∨
      splitSum? text = none ∧ splitProduct? text = none ∧ ∀ c ∈ text.head?, c ≠ '+' ∧ c ≠ '-' := by
  have part : ∀ {e : Expression}, e.eval functions = .error fault → e.chars.length < text.length →
      FromCall functions fault (text.length - 1) :=
    fun he hlength => (fromCall_of_eval _ he hkind).mono (by omega)
  cases hsum : splitSum? text with
  | some divided =>
    obtain ⟨left, o, right⟩ := divided
    have hshort := lengths_of_splitSum? hsum
    rw [ofChars_of_some hsum] at h
    cases eval_binary_error h with
    | inl hleft => exact .inl (part hleft (by rw [chars_ofChars]; exact hshort.1))
    | inr hright => exact .inl (part hright (by rw [chars_ofProduct]; exact hshort.2))
  | none =>
    rw [ofChars_of_none hsum] at h
    cases hproduct : splitProduct? text with
    | some divided =>
      obtain ⟨left, o, right⟩ := divided
      have hshort := lengths_of_splitProduct? hproduct
      rw [ofProduct_of_some hproduct] at h
      cases eval_binary_error h with
      | inl hleft => exact .inl (part hleft (by rw [chars_ofProduct]; exact hshort.1))
      | inr hright => exact .inl (part hright (by rw [chars_ofSigned]; exact hshort.2))
    | none =>
      rw [ofProduct_of_none hproduct] at h
      by_cases hsign : ∃ negative rest, text = signChar negative :: rest
      · obtain ⟨negative, rest, rfl⟩ := hsign
        rw [ofSigned_cons] at h
        exact .inl (part (eval_signed_error h) (by rw [chars_ofSigned]; simp))
      · exact .inr ⟨rfl, rfl, head_of_not_signed hsign⟩

/-! ## Names in front of a parenthesis -/

/-- No operator of the name divides what begins with the name: a `*` or `/` stands at the very
start, a `+` or `-` behind the mark of an exponent. -/
def Callable (name : List Char) : Prop :=
  ∀ before c after, name = before ++ c :: after →
    (c = '*' ∨ c = '/' → before = []) ∧
      (c = '+' ∨ c = '-' → ∃ mark, before.getLast? = some mark ∧ Literal.IsMark mark)

instance (c : Char) : Decidable (Literal.IsMark c) :=
  inferInstanceAs (Decidable (_ ∨ _))

theorem callable_iff_take {name : List Char} :
    (∀ n ≤ name.length, (name.drop n).head?.all (fun c =>
      (c = '*' ∨ c = '/' → name.take n = []) ∧
        (c = '+' ∨ c = '-' → (name.take n).getLast?.any Literal.IsMark)) = true) ↔
      Callable name := by
  constructor
  · intro h before c after hname
    have hdrop : (name.drop before.length).head? = some c := by simp [hname]
    have htake : name.take before.length = before := by simp [hname]
    have hall := h before.length (by simp [hname])
    rw [Option.all_eq_true, htake] at hall
    obtain ⟨first, marked⟩ := of_decide_eq_true (hall c hdrop)
    refine ⟨first, fun hsign => ?_⟩
    obtain ⟨mark, hmark, isMark⟩ := (Option.any_eq_true _ _).1 (marked hsign)
    exact ⟨mark, hmark, of_decide_eq_true isMark⟩
  · intro callable n _
    rw [Option.all_eq_true]
    intro c hc
    obtain ⟨after, hdrop⟩ := List.head?_eq_some_iff.1 hc
    obtain ⟨first, marked⟩ := callable (name.take n) c after
      (by rw [← hdrop, List.take_append_drop])
    refine decide_eq_true ⟨first, fun hsign => ?_⟩
    obtain ⟨mark, hmark, isMark⟩ := marked hsign
    exact (Option.any_eq_true _ _).2 ⟨mark, hmark, decide_eq_true isMark⟩

instance (name : List Char) : Decidable (Callable name) :=
  decidable_of_iff _ callable_iff_take

theorem Callable.noneDivides_additive {name : List Char} (h : Callable name) :
    NoneDivides Operator.additive? notExponentMark [] name := by
  intro before c after hname hdivides
  have hsign : c = '+' ∨ c = '-' := by
    by_contra hnot
    have hoperator := hdivides.operator
    rw [additive?_eq_none_iff.2 (not_or.1 hnot)] at hoperator
    cases hoperator
  obtain ⟨mark, hmark, isMark⟩ := (h before c after hname).2 hsign
  obtain ⟨d, hd, hallowed⟩ := hdivides.before
  obtain rfl : mark = d := by simpa [hmark] using hd
  obtain rfl | rfl := isMark <;> simp [notExponentMark] at hallowed

theorem Callable.noneDivides_multiplicative {name : List Char} (h : Callable name) :
    NoneDivides Operator.multiplicative? (fun _ => true) [] name := by
  intro before c after hname hdivides
  have hoperator : c = '*' ∨ c = '/' := by
    have := hdivides.operator
    unfold Operator.multiplicative? at this
    split at this <;> simp_all
  obtain ⟨d, hd, -⟩ := hdivides.before
  rw [(h before c after hname).1 hoperator] at hd
  cases hd

theorem Callable.head {name : List Char} (h : Callable name) :
    ∀ c ∈ name.head?, c ≠ '+' ∧ c ≠ '-' := by
  intro c hc
  obtain ⟨rest, hname⟩ := List.head?_eq_some_iff.1 hc
  have hfirst : ¬ (c = '+' ∨ c = '-') := by
    intro hsign
    obtain ⟨mark, hmark, -⟩ := (h [] c rest hname).2 hsign
    cases hmark
  exact not_or.1 hfirst

theorem callable_of_undivided {name : List Char} (opening : '(' ∉ name) (closing : ')' ∉ name)
    (hsum : splitSum? (name ++ ['(', ')']) = none)
    (hproduct : splitProduct? (name ++ ['(', ')']) = none)
    (hhead : ∀ c ∈ (name ++ ['(', ')']).head?, c ≠ '+' ∧ c ≠ '-') : Callable name := by
  intro before c after hname
  have level : Level (after ++ ['(', ')']) := by
    refine (Text.level_append_right_iff (by decide)).2 (Text.level_of_not_mem ?_ ?_)
    · exact fun h => opening (by simp [hname, h])
    · exact fun h => closing (by simp [hname, h])
  have hsplit : name ++ ['(', ')'] = before ++ c :: (after ++ ['(', ')']) := by simp [hname]
  constructor
  · intro hoperator
    by_contra hne
    refine splitLast?_eq_none_iff.1 hproduct before c _ hsplit
      ⟨?_, level, before.getLast hne, ?_, rfl⟩
    · obtain rfl | rfl := hoperator <;> rfl
    · exact List.getLast?_eq_some_getLast hne
  · intro hsign
    have hne : before ≠ [] := by
      intro hempty
      have := hhead c (by simp [hsplit, hempty])
      exact not_or.2 this hsign
    refine ⟨before.getLast hne, List.getLast?_eq_some_getLast hne, ?_⟩
    by_contra hmark
    refine splitLast?_eq_none_iff.1 hsum before c _ hsplit
      ⟨?_, level, before.getLast hne, ?_, ?_⟩
    · obtain rfl | rfl := hsign <;> rfl
    · exact List.getLast?_eq_some_getLast hne
    · simpa [notExponentMark, Literal.IsMark] using hmark

/-- Behind a name that can be called, a group holds the arguments. -/
theorem ofChars_call {name inner : List Char} (callable : Callable name) (nonempty : name ≠ [])
    (opening : '(' ∉ name) (balanced : Balanced inner) :
    ofChars (name ++ '(' :: (inner ++ [')'])) = call name ((splitArguments inner).map ofChars) := by
  have level := (Text.balanced_group balanced).level
  have hsum : splitSum? (name ++ '(' :: (inner ++ [')'])) = none :=
    splitLast?_eq_none_iff.2 ((noneDivides_append level).2
      ⟨callable.noneDivides_additive, hidden_group rfl rfl balanced _⟩)
  have hproduct : splitProduct? (name ++ '(' :: (inner ++ [')'])) = none :=
    splitLast?_eq_none_iff.2 ((noneDivides_append level).2
      ⟨callable.noneDivides_multiplicative, hidden_group rfl rfl balanced _⟩)
  have hhead : ∀ c ∈ (name ++ '(' :: (inner ++ [')'])).head?, c ≠ '+' ∧ c ≠ '-' := by
    intro c hc
    obtain ⟨d, rest, hname⟩ := List.exists_cons_of_ne_nil nonempty
    refine callable.head c ?_
    rw [hname] at hc ⊢
    exact hc
  rw [ofChars_of_undivided hsum hproduct hhead,
    ofOperand_of_call (call?_append opening inner) nonempty]

end Reckoner.Expression

namespace Reckoner

open Expression (Callable Contained ofChars evalAll lengthLimit splitArguments)
open Text (strip joinCommas strip_append)

/-! ## The text of a call -/

/-- A name, and texts between parentheses. -/
def callText (name : String) (texts : List String) : String :=
  name ++ "(" ++ ",".intercalate texts ++ ")"

theorem intercalate_eq_joinCommas (texts : List (List Char)) :
    [','].intercalate texts = joinCommas texts := by
  induction texts with
  | nil => rfl
  | cons first more ih =>
    cases more with
    | nil => simp [joinCommas]
    | cons second others => simp [joinCommas, ← ih]

theorem strip_joinCommas (texts : List (List Char)) :
    strip (joinCommas texts) = joinCommas (texts.map strip) := by
  induction texts with
  | nil => rfl
  | cons first more ih =>
    cases more with
    | nil => rfl
    | cons second others =>
      have hcomma : strip (',' :: joinCommas (second :: others)) =
          ',' :: strip (joinCommas (second :: others)) := rfl
      have hjoin : joinCommas (first :: second :: others) =
          first ++ ',' :: joinCommas (second :: others) := rfl
      rw [hjoin, strip_append, hcomma, ih]
      rfl

theorem strip_callText {name : String} (checked : Function.checkName name = .ok ())
    (texts : List String) : strip (callText name texts).toList =
      name.toList ++ '(' :: (joinCommas (texts.map fun text => strip text.toList) ++ [')']) := by
  have hname : strip name.toList = name.toList := by
    refine List.filter_eq_self.2 ?_
    intro c hc
    have := (Function.checkName_eq_ok_iff.1 checked).2 c hc
    simp [Function.isNameChar] at this
    simp [this.1]
  have htext : (callText name texts).toList =
      name.toList ++ '(' :: (joinCommas (texts.map String.toList) ++ [')']) := by
    simp [callText, intercalate_eq_joinCommas]
  have hopen : ∀ rest, strip ('(' :: rest) = '(' :: strip rest := fun _ => rfl
  have hclose : strip [')'] = [')'] := rfl
  rw [htext, strip_append, hname, hopen, strip_append, hclose, strip_joinCommas, List.map_map]
  rfl

theorem length_strip_callText {name : String} (checked : Function.checkName name = .ok ())
    (texts : List String) : (strip (callText name texts).toList).length =
      name.length + 2 + (joinCommas (texts.map fun text => strip text.toList)).length := by
  rw [strip_callText checked, List.length_append, String.length_toList, List.length_cons,
    List.length_append, List.length_singleton]
  omega

namespace Repertoire

variable {functions : Repertoire}

theorem evalAll_of_evaluate {texts : List String} {values : List Float}
    (h : List.Forall₂ (fun text v => functions.evaluate text = .ok v) texts values) :
    evalAll functions ((texts.map fun text => strip text.toList).map ofChars) = .ok values := by
  induction h with
  | nil => rfl
  | cons hfirst hmore ih =>
    rw [List.map_cons, List.map_cons, evalAll, (evaluate_eq_ok_iff.1 hfirst).2]
    simp only [ih]

theorem contained_of_evaluate (built : functions.Built) {texts : List String} {values : List Float}
    (h : List.Forall₂ (fun text v => functions.evaluate text = .ok v) texts values) :
    ∀ text ∈ texts.map fun text => strip text.toList, Contained text := by
  induction h with
  | nil =>
    intro text member
    cases member
  | @cons first v more values hfirst hmore ih =>
    intro text member
    rw [List.map_cons] at member
    cases member with
    | head =>
      have hcontained := Expression.contained_of_eval built _ (evaluate_eq_ok_iff.1 hfirst).2
      rwa [Expression.chars_ofChars] at hcontained
    | tail _ member => exact ih text member

/-- A call by a name that can be called is read as that call. -/
theorem ofChars_callText (built : functions.Built) {f : Function} (member : f ∈ functions.functions)
    (callable : Callable f.name.toList) {texts : List String} {values : List Float}
    (h : List.Forall₂ (fun text v => functions.evaluate text = .ok v) texts values) :
    ofChars (strip (callText f.name texts).toList) =
      Expression.call f.name.toList ((texts.map fun text => strip text.toList).map ofChars) := by
  have checked := built.checked f member
  have plain := Function.plain_of_checkName checked
  have contained := contained_of_evaluate built h
  have hargs : splitArguments (joinCommas (texts.map fun text => strip text.toList)) =
      texts.map fun text => strip text.toList := by
    apply Expression.splitArguments_joinCommas
    intro text hmem
    have := contained text hmem
    exact ⟨this.nonempty, this.balanced.level, this.commas⟩
  have hread := Expression.ofChars_call callable (Function.checkName_eq_ok_iff.1 checked).1
    (fun hopen => (plain _ hopen).1 rfl)
    (Text.balanced_joinCommas fun text hmem => (contained text hmem).balanced)
  rw [strip_callText checked, hread, hargs]

/-- A function whose name can be called is called by its name. -/
theorem evaluate_callText_of_callable (built : functions.Built) {f : Function}
    (member : f ∈ functions.functions) (callable : Callable f.name.toList)
    {texts : List String} {values : List Float}
    (h : List.Forall₂ (fun text v => functions.evaluate text = .ok v) texts values)
    (fits : (strip (callText f.name texts).toList).length ≤ lengthLimit) :
    functions.evaluate (callText f.name texts) = f.invoke values := by
  rw [evaluate_of_fits functions fits, ofChars_callText built member callable h, Expression.eval,
    String.ofList_toList, built.get?_of_mem member]
  simp only [evalAll_of_evaluate h]

end Repertoire

/-- A function that turns every call down. -/
def Function.refusing (name : String) : Function where
  name := name
  arity := .atLeast 0
  body := fun _ => .failed (.invocationFailure name "refused")

/-- If the fault of the only function comes out, the call took up the whole text. -/
theorem callable_of_refused {name : String} (checked : Function.checkName name = .ok ())
    (fits : name.length + 2 ≤ lengthLimit)
    (h : Repertoire.evaluate ⟨[(Function.refusing name).guard]⟩ (callText name []) =
      .error (.invocationFailure name "refused")) : Callable name.toList := by
  have plain := Function.plain_of_checkName checked
  have htext : strip (callText name []).toList = name.toList ++ ['(', ')'] :=
    strip_callText checked []
  have hlength : (strip (callText name []).toList).length = name.length + 2 :=
    length_strip_callText checked []
  rw [Repertoire.evaluate_of_fits _ (by rwa [hlength]), htext] at h
  cases Expression.fromCall_of_ofChars h (by simp [Fault.kind]) with
  | inl hcall =>
    obtain ⟨f, member, hshort, -⟩ := hcall
    obtain rfl : f = (Function.refusing name).guard := by simpa using member
    have hname : (Function.refusing name).guard.name = name := rfl
    -- A part of the text is too short for a call of the function.
    rw [← htext, hlength, hname] at hshort
    omega
  | inr undivided =>
    exact Expression.callable_of_undivided (fun hopen => (plain _ hopen).1 rfl)
      (fun hclose => (plain _ hclose).2.1 rfl) undivided.1 undivided.2.1 undivided.2.2

/-- Every call of a function of this name that fits, with arguments that have values, is answered
by the function. -/
def CalledByName (name : String) : Prop :=
  ∀ functions : Repertoire, functions.Built → ∀ f ∈ functions.functions, f.name = name →
    ∀ (texts : List String) (values : List Float),
      List.Forall₂ (fun text v => functions.evaluate text = .ok v) texts values →
      (strip (callText name texts).toList).length ≤ lengthLimit →
      functions.evaluate (callText name texts) = f.invoke values

/-- Of the names that are accepted, those with operators in the wrong places cannot be called,
unless they are too long for any call. -/
theorem calledByName_iff {name : String} (checked : Function.checkName name = .ok ()) :
    CalledByName name ↔ Callable name.toList ∨ lengthLimit < name.length + 2 := by
  constructor
  · intro h
    by_cases fits : name.length + 2 ≤ lengthLimit
    · have hlength : (strip (callText name []).toList).length = name.length + 2 :=
        length_strip_callText checked []
      have built : Repertoire.Built ⟨[(Function.refusing name).guard]⟩ :=
        Repertoire.built_single checked
      -- A call without arguments is the shortest one, and it is enough.
      have refused := h _ built _ (List.mem_cons_self ..) rfl [] [] .nil (by rwa [hlength])
      exact .inl (callable_of_refused checked fits refused)
    · exact .inr (Nat.lt_of_not_le fits)
  · intro h functions built f member hname texts values hvalues fits
    subst hname
    cases h with
    | inl callable =>
      exact Repertoire.evaluate_callText_of_callable built member callable hvalues fits
    | inr long =>
      rw [length_strip_callText checked] at fits
      omega

theorem calledByName_iff_marked :
    Function.checkName "e-f" = .ok () ∧ Function.checkName "f-g" = .ok () ∧
      CalledByName "e-f" ∧ ¬ CalledByName "f-g" := by
  have marked : Function.checkName "e-f" = .ok () := rfl
  have divided : Function.checkName "f-g" = .ok () := rfl
  refine ⟨marked, divided, (calledByName_iff marked).2 (.inl (by decide)), ?_⟩
  intro called
  have : ¬ (Callable "f-g".toList ∨ lengthLimit < "f-g".length + 2) := by decide
  exact this ((calledByName_iff divided).1 called)

/-- The name was accepted, and the call is read as a difference. -/
theorem evaluate_callText_divided_name :
    let f : Function :=
      { name := "f-g", arity := .exactly 1, body := fun xs => .returned xs.length.toFloat }
    let known : Repertoire := ⟨[f.guard]⟩
    let one := (Decimal.mk 1 0).toFloat
    known.Built ∧ known.evaluate "1" = .ok one ∧ f.guard.invoke [one] = .ok (Nat.toFloat 1) ∧
      known.evaluate (callText "f-g" ["1"]) = .error (.invalidNumber "f") := by
  intro f known one
  have checked : Function.checkName "f-g" = .ok () := rfl
  have built : known.Built := Repertoire.built_single checked
  refine ⟨built, ?_, rfl, ?_⟩
  · let literal := Grammar.Numeral.ofUnsigned "1".toList one (Literal.unsigned?_of_decimal? rfl)
    let tree : Grammar.Sum := .term none (.factor (.numeral literal))
    exact Repertoire.evaluate_eq_ok_iff.2 ⟨by decide, tree.eval_chars known⟩
  · have hdivided : Expression.splitSum? "f-g(1)".toList =
        some (['f'], .subtract, "g(1)".toList) := by decide
    have hleft : ofChars ['f'] = .literal ['f'] := by
      rw [Expression.ofChars_of_undivided (by decide) (by decide) (by simp),
        Expression.ofOperand_of_none (by decide)]
    have hfault : (Expression.literal ['f']).eval known = .error (.invalidNumber "f") := by
      rw [Expression.eval]
      rfl
    have htext : strip (callText "f-g" ["1"]).toList = "f-g(1)".toList := by decide
    rw [Repertoire.evaluate_of_fits known (by rw [htext]; decide), htext,
      Expression.ofChars_of_some hdivided, Expression.eval, hleft, hfault]

end Reckoner
