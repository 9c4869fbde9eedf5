import Reckoner.Proofs.Naming

/-! # What an evaluation looks up

An evaluation sees the functions only through the names that the text calls (`eval_congr`).  Names
are found whole, under distinct entries, so neither the order of the functions nor a function that
is never called has a say (`evaluate_perm`, `evaluate_insertAll`).  No text has to be well formed
for this: a called name stands in front of a parenthesis in whatever piece the text was cut into
(`infix_of_called`).
-/

namespace Reckoner.Expression

open Text (joinCommas)

/-! ## Called names -/

mutual

/-- The names that an expression calls. -/
def called : Expression → List (List Char)
  | literal _ => []
  | binary _ left right => called left ++ called right
  | signed _ operand => called operand
  | group inner => called inner
  | call name args => name :: calledAll args

def calledAll : List Expression → List (List Char)
  | [] => []
  | arg :: args => called arg ++ calledAll args

end

/-! ## Parts stand in the text -/

theorem infix_left (o : Operator) (left right : Expression) :
    left.chars <:+: (binary o left right).chars :=
  List.infix_append [] _ _

theorem infix_right (o : Operator) (left right : Expression) :
    right.chars <:+: (binary o left right).chars :=
  (List.suffix_append (left.chars ++ [o.char]) _).isInfix.trans (by simp [chars])

theorem infix_operand (negative : Bool) (operand : Expression) :
    operand.chars <:+: (signed negative operand).chars :=
  (List.suffix_cons _ _).isInfix

theorem infix_inner (inner : Expression) : inner.chars <:+: (group inner).chars :=
  List.infix_append ['('] _ [')']

theorem infix_arguments (name : List Char) (args : List Expression) :
    joinCommas (charsOfAll args) <:+: (call name args).chars :=
  ⟨name ++ ['('], [')'], by simp [chars]⟩

theorem infix_first (arg : Expression) (args : List Expression) :
    arg.chars <:+: joinCommas (charsOfAll (arg :: args)) := by
  cases args with
  | nil => exact List.infix_rfl
  | cons second others => exact ⟨[], ',' :: joinCommas (charsOfAll (second :: others)), rfl⟩

theorem infix_others (arg : Expression) (args : List Expression) :
    joinCommas (charsOfAll args) <:+: joinCommas (charsOfAll (arg :: args)) := by
  cases args with
  | nil => exact List.nil_infix
  | cons second others => exact ⟨arg.chars ++ [','], [], by simp [charsOfAll, joinCommas]⟩

mutual

/-- A called name stands in the text, with a parenthesis behind it. -/
theorem infix_of_called : (e : Expression) → ∀ name ∈ e.called, name ++ ['('] <:+: e.chars
  | literal text => by
    intro name member
    cases member
  | binary o left right => by
    intro name member
    rw [called] at member
    cases List.mem_append.1 member with
    | inl inLeft => exact (infix_of_called left name inLeft).trans (infix_left o left right)
    | inr inRight => exact (infix_of_called right name inRight).trans (infix_right o left right)
  | signed negative operand => by
    intro name member
    exact (infix_of_called operand name member).trans (infix_operand negative operand)
  | group inner => by
    intro name member
    exact (infix_of_called inner name member).trans (infix_inner inner)
  | call name args => by
    intro other member
    rw [called] at member
    cases member with
    | head => exact ⟨[], joinCommas (charsOfAll args) ++ [')'], by simp [chars]⟩
    | tail _ inArgs =>
      exact (infix_of_calledAll args other inArgs).trans (infix_arguments name args)

theorem infix_of_calledAll : (args : List Expression) →
    ∀ name ∈ calledAll args, name ++ ['('] <:+: joinCommas (charsOfAll args)
  | [] => by
    intro name member
    cases member
  | arg :: others => by
    intro name member
    rw [calledAll] at member
    cases List.mem_append.1 member with
    | inl inArg => exact (infix_of_called arg name inArg).trans (infix_first arg others)
    | inr inOthers => exact (infix_of_calledAll others name inOthers).trans (infix_others arg others)

end

/-! ## Evaluation under two sets of functions -/

variable {known other : Repertoire}

mutual

/-- Where the called names mean the same, the value is the same, and so is the fault. -/
theorem eval_congr : (e : Expression) →
    (∀ name ∈ e.called, known.get? (String.ofList name) = other.get? (String.ofList name)) →
    e.eval known = e.eval other
  | literal text, _ => rfl
  | binary o left right, same => by
    rw [called] at same
    have sameLeft := eval_congr left fun name member => same name (List.mem_append_left _ member)
    have sameRight := eval_congr right fun name member => same name (List.mem_append_right _ member)
    rw [eval, eval, sameLeft, sameRight]
  | signed negative operand, same => by
    rw [eval, eval, eval_congr operand same]
  | group inner, same => by
    rw [eval, eval, eval_congr inner same]
  | call name args, same => by
    rw [called] at same
    have sameArgs := evalAll_congr args fun arg member => same arg (List.mem_cons_of_mem _ member)
    -- The fault for an unknown name shows the text of the call and nothing of the functions.
    rw [eval, eval, same name (List.mem_cons_self ..), sameArgs]

theorem evalAll_congr : (args : List Expression) →
    (∀ name ∈ calledAll args, known.get? (String.ofList name) = other.get? (String.ofList name)) →
    evalAll known args = evalAll other args
  | [], _ => rfl
  | arg :: args, same => by
    rw [calledAll] at same
    have sameArg := eval_congr arg fun name member => same name (List.mem_append_left _ member)
    have sameArgs := evalAll_congr args fun name member =>
      same name (List.mem_append_right _ member)
    rw [evalAll, evalAll, sameArg, sameArgs]

end

mutual

/-- Evaluation stops at a name that is not registered, so what has a value calls none. -/
theorem registered_of_eval : (e : Expression) → {v : Float} → e.eval known = .ok v →
    ∀ name ∈ e.called, ∃ f, known.get? (String.ofList name) = some f
  | literal text, _, _ => by
    intro name member
    cases member
  | binary o left right, _, h => by
    rw [Grammar.eval_binary] at h
    obtain ⟨x, hx, hnext⟩ := bind_eq_ok h
    obtain ⟨y, hy, -⟩ := bind_eq_ok hnext
    intro name member
    rw [called] at member
    cases List.mem_append.1 member with
    | inl inLeft => exact registered_of_eval left hx name inLeft
    | inr inRight => exact registered_of_eval right hy name inRight
  | signed negative operand, _, h => by
    rw [Grammar.eval_signed] at h
    obtain ⟨x, hx, -⟩ := bind_eq_ok h
    exact registered_of_eval operand hx
  | group inner, _, h => by
    rw [eval] at h
    exact registered_of_eval inner h
  | call name args, _, h => by
    rw [eval] at h
    split at h
    · cases h
    · next f hget =>
      split at h
      · cases h
      · next values hvalues =>
        intro other member
        rw [called] at member
        cases member with
        | head => exact ⟨f, hget⟩
        | tail _ inArgs => exact registered_of_evalAll args hvalues other inArgs

theorem registered_of_evalAll : (args : List Expression) → {values : List Float} →
    evalAll known args = .ok values →
    ∀ name ∈ calledAll args, ∃ f, known.get? (String.ofList name) = some f
  | [], _, _ => by
    intro name member
    cases member
  | arg :: args, _, h => by
    rw [evalAll] at h
    split at h
    · cases h
    · next x hx =>
      split at h
      · cases h
      · next xs hxs =>
        intro name member
        rw [calledAll] at member
        cases List.mem_append.1 member with
        | inl inArg => exact registered_of_eval arg hx name inArg
        | inr inArgs => exact registered_of_evalAll args hxs name inArgs

end

end Reckoner.Expression

namespace Reckoner

/-- A function that counts its arguments. -/
def Function.counter (name : String) : Function where
  name := name
  arity := .atLeast 0
  body := fun xs => .returned xs.length.toFloat

namespace Repertoire

open Expression (ofChars lengthLimit)
open Text (strip)

variable {known next other : Repertoire}

/-! ## Names in two sets of functions -/

theorem Built.get?_eq_some_iff (built : Built known) {name : String} {f : Function} :
    known.get? name = some f ↔ f ∈ known.functions ∧ f.name = name := by
  constructor
  · exact mem_of_get?
  · rintro ⟨member, rfl⟩
    exact built.get?_of_mem member

/-- Names are distinct, so the first function of a name is the only one. -/
theorem get?_perm (builtKnown : Built known) (builtOther : Built other)
    (same : known.functions.Perm other.functions) (name : String) :
    known.get? name = other.get? name := by
  refine Option.ext fun f => ?_
  rw [builtKnown.get?_eq_some_iff, builtOther.get?_eq_some_iff, same.mem_iff]

theorem get?_of_prefix (grown : known.functions <+: next.functions) {name : String} {f : Function}
    (found : known.get? name = some f) : next.get? name = some f := by
  obtain ⟨more, hmore⟩ := grown
  rw [get?, ← hmore, List.find?_append, ← get?, found]
  rfl

theorem get?_append_of_not_mem {more : List Function}
    (grown : next.functions = known.functions ++ more) {name : String}
    (fresh : ∀ f ∈ more, f.name ≠ name) : next.get? name = known.get? name := by
  have missing : more.find? (fun f => f.name = name) = none := by
    refine List.find?_eq_none.2 ?_
    intro f member
    simpa using fresh f member
  rw [get?, grown, List.find?_append, missing, Option.or_none, get?]

/-! ## Further insertions -/

/-- Inserts functions one after the other; none of them may be refused. -/
def insertAll (known : Repertoire) (added : List Function) : Except Fault Repertoire :=
  added.foldlM insert known

theorem functions_of_insertAll {added : List Function} (h : known.insertAll added = .ok next) :
    next.functions = known.functions ++ added.map Function.guard := by
  induction added generalizing known with
  | nil =>
    cases h
    simp
  | cons f rest ih =>
    rw [insertAll, List.foldlM_cons] at h
    obtain ⟨between, first, later⟩ := bind_eq_ok h
    obtain ⟨-, -, rfl⟩ := insert_eq_ok_iff.1 first
    rw [ih later, List.map_cons, List.append_assoc, List.singleton_append]

/-! ## Evaluation of a text -/

theorem evaluate_congr {text : String} (same : ∀ name ∈ (ofChars (strip text.toList)).called,
    known.get? (String.ofList name) = other.get? (String.ofList name)) :
    known.evaluate text = other.evaluate text := by
  by_cases fits : (strip text.toList).length ≤ lengthLimit
  · rw [evaluate_of_fits known fits, evaluate_of_fits other fits, Expression.eval_congr _ same]
  · rw [evaluate, evaluate, if_pos (Nat.lt_of_not_le fits), if_pos (Nat.lt_of_not_le fits)]

theorem evaluate_perm (builtKnown : Built known) (builtOther : Built other)
    (same : known.functions.Perm other.functions) (text : String) :
    known.evaluate text = other.evaluate text :=
  evaluate_congr fun _ _ => get?_perm builtKnown builtOther same _

/-- Values survive whatever is added behind the functions: all that they call is found before it. -/
theorem evaluate_of_prefix (grown : known.functions <+: next.functions) {text : String} {v : Float}
    (h : known.evaluate text = .ok v) : next.evaluate text = .ok v := by
  rw [← h]
  refine evaluate_congr fun name member => ?_
  obtain ⟨f, found⟩ := Expression.registered_of_eval _ (evaluate_eq_ok_iff.1 h).2 name member
  rw [found, get?_of_prefix grown found]

/-- Faults survive too if no added name stands in front of a parenthesis. -/
theorem evaluate_insertAll {added : List Function} (h : known.insertAll added = .ok next)
    {text : String} (uncalled : ∀ f ∈ added, ¬ f.name.toList ++ ['('] <:+: strip text.toList) :
    next.evaluate text = known.evaluate text := by
  refine evaluate_congr fun name member => ?_
  refine get?_append_of_not_mem (functions_of_insertAll h) ?_
  intro g inAdded same
  obtain ⟨f, inList, rfl⟩ := List.mem_map.1 inAdded
  have stands := Expression.infix_of_called _ name member
  rw [Expression.chars_ofChars] at stands
  refine uncalled f inList ?_
  rwa [← Function.name_guard, same, String.toList_ofList]

theorem evaluate_counter (built : known.Built) (name : String)
    (member : (Function.counter name).guard ∈ known.functions)
    (callable : Expression.Callable name.toList)
    (fits : (strip (callText name ["1"]).toList).length ≤ lengthLimit) :
    known.evaluate (callText name ["1"]) = .ok (Nat.toFloat 1) := by
  let literal := Grammar.Numeral.ofDecimal "1".toList ⟨1, 0⟩ rfl
  let one : Grammar.Sum := .term none (.factor (.numeral literal))
  have argument : known.evaluate "1" = .ok literal.value :=
    evaluate_eq_ok_iff.2 ⟨by decide, one.eval_chars known⟩
  exact evaluate_callText_of_callable built member callable (.cons argument .nil) fits

/-- The value or fault of a text is the same whatever the order of the functions; further
insertions keep every value, and every fault of a text in which no added name is called. -/
theorem evaluate_perm_insertAll :
    (∀ known other : Repertoire, known.Built → other.Built →
      known.functions.Perm other.functions →
      ∀ text, known.evaluate text = other.evaluate text) ∧
    ∀ (known : Repertoire) (added : List Function) (next : Repertoire),
      known.insertAll added = .ok next → ∀ text,
        (∀ v, known.evaluate text = .ok v → next.evaluate text = .ok v) ∧
        ((∀ f ∈ added, ¬ f.name.toList ++ ['('] <:+: strip text.toList) →
          next.evaluate text = known.evaluate text) := by
  constructor
  · intro known other builtKnown builtOther same text
    exact evaluate_perm builtKnown builtOther same text
  · intro known added next inserted text
    have grown : known.functions <+: next.functions :=
      ⟨_, (functions_of_insertAll inserted).symm⟩
    exact ⟨fun v => evaluate_of_prefix grown, evaluate_insertAll inserted⟩

/-- The name of one function may begin that of another one, or that of none. -/
theorem evaluate_perm_insertAll_shared_beginning :
    let sin := Function.counter "sin"
    let sint := Function.counter "sint"
    let cos := Function.counter "cos"
    let known : Repertoire := ⟨[sin.guard, sint.guard]⟩
    let other : Repertoire := ⟨[sint.guard, sin.guard]⟩
    let next : Repertoire := ⟨[sin.guard, sint.guard, cos.guard]⟩
    known.Built ∧ other.Built ∧ known.functions.Perm other.functions ∧
      known.insertAll [cos] = .ok next ∧
      known.evaluate "sint(1)" = .ok (Nat.toFloat 1) ∧
      other.evaluate "sint(1)" = .ok (Nat.toFloat 1) ∧
      next.evaluate "sint(1)" = .ok (Nat.toFloat 1) ∧
      ¬ "cos".toList ++ ['('] <:+: strip "cost(1)".toList ∧
      next.evaluate "cost(1)" = known.evaluate "cost(1)" := by
  intro sin sint cos known other next
  have checkedSin : Function.checkName "sin" = .ok () := rfl
  have checkedSint : Function.checkName "sint" = .ok () := rfl
  have builtKnown : known.Built :=
    .insert (built_single checkedSin) (insert_eq_ok_iff.2 ⟨checkedSint, by decide, rfl⟩)
  have builtOther : other.Built :=
    .insert (built_single checkedSint) (insert_eq_ok_iff.2 ⟨checkedSin, by decide, rfl⟩)
  have same : known.functions.Perm other.functions := .swap ..
  have checkedCos : Function.checkName "cos" = .ok () := rfl
  have inserted : known.insertAll [cos] = .ok next := by
    rw [insertAll, List.foldlM_cons, insert_eq_ok_iff.2 ⟨checkedCos, by decide, rfl⟩]
    rfl
  have written : callText "sint" ["1"] = "sint(1)" := by decide
  have value : known.evaluate "sint(1)" = .ok (Nat.toFloat 1) := by
    rw [← written]
    exact evaluate_counter builtKnown "sint" (by simp [known, sint]) (by decide)
      (by rw [written]; decide)
  have unknown : strip "cost(1)".toList = ['c', 'o', 's', 't', '(', '1', ')'] := by decide
  have uncalled : ¬ "cos".toList ++ ['('] <:+: strip "cost(1)".toList := by
    rw [unknown]
    decide
  obtain ⟨reordered, extended⟩ := evaluate_perm_insertAll
  refine ⟨builtKnown, builtOther, same, inserted, value, ?_, ?_, uncalled, ?_⟩
  · rw [← reordered known other builtKnown builtOther same]
    exact value
  · exact (extended known [cos] next inserted "sint(1)").1 _ value
  · refine (extended known [cos] next inserted "cost(1)").2 ?_
    intro f member
    obtain rfl := List.mem_singleton.1 member
    exact uncalled

end Repertoire
end Reckoner
