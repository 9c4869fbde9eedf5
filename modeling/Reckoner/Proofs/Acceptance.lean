import Reckoner.Proofs.Evaluation
import Reckoner.Proofs.Repertoires

/-! # What has a value was written by the grammar

Dividing a text never checks that its parentheses match, and a piece cut out of the middle of two
groups is read like any other.  Such a piece has no value: by `exists_sum`, every text with a value
is the text of a tree and the value is the tree's.  The induction is on the length of the text, and
on the stage where the text stays the same.
-/

namespace Reckoner.Grammar

open Expression (ofChars ofProduct ofSigned ofOperand splitSum? splitProduct? splitArguments
  splitLast?_eq_none_iff noneDivides_cons signChar additive?_eq_none_iff notExponentMark)
open Text (Level Balanced strip)

theorem signText_eq_nil {sign : Option Bool} {rest : List Char}
    (h : ∀ d ∈ (signText sign ++ rest).head?, d ≠ '+' ∧ d ≠ '-') : sign = none := by
  cases sign with
  | none => rfl
  | some negative =>
    rw [signText_some] at h
    have := h (signChar negative) rfl
    cases negative <;> simp [signChar] at this

/-! ## From values to trees -/

variable {functions : Repertoire}

/-- The name of a registered function. -/
def Name.ofFound (built : functions.Built) (plain : functions.WithoutOperators) {name : List Char}
    {f : Function} (h : functions.get? (String.ofList name) = some f) : Name where
  chars := name
  nonempty := by
    obtain ⟨member, hname⟩ := Repertoire.mem_of_get? h
    simpa [hname] using (Function.checkName_eq_ok_iff.1 (built.checked f member)).1
  blanks := by
    obtain ⟨member, hname⟩ := Repertoire.mem_of_get? h
    have chars := (Function.checkName_eq_ok_iff.1 (built.checked f member)).2
    rw [hname, String.toList_ofList] at chars
    intro c hc
    have := chars c hc
    simp [Function.isNameChar] at this
    exact this.1
  plain := by
    obtain ⟨member, hname⟩ := Repertoire.mem_of_get? h
    have := Function.plain_of_checkName (built.checked f member)
    rwa [hname, String.toList_ofList] at this
  operators := by
    obtain ⟨member, hname⟩ := Repertoire.mem_of_get? h
    have := plain f member
    rwa [hname, String.toList_ofList] at this

/-- If each text with a value is the text of a sum, the texts with values are arguments. -/
theorem exists_arguments {texts : List (List Char)} {values : List Float}
    (ih : ∀ text ∈ texts, ∀ v, (ofChars text).eval functions = .ok v →
      ∃ s : Sum, s.chars = text ∧ s.value functions = .ok v)
    (h : Expression.evalAll functions (texts.map ofChars) = .ok values) :
    ∃ args : Arguments, args.texts = texts ∧ args.values functions = .ok values := by
  induction texts generalizing values with
  | nil => exact ⟨.nil, rfl, h⟩
  | cons first more ihMore =>
    rw [List.map_cons, Expression.evalAll] at h
    split at h
    · cases h
    · next x hx =>
      split at h
      · cases h
      · next xs hxs =>
        obtain ⟨s, hs, hvalue⟩ := ih first (List.mem_cons_self ..) x hx
        obtain ⟨args, hargs, hvalues⟩ :=
          ihMore (fun text member => ih text (List.mem_cons_of_mem _ member)) hxs
        refine ⟨.cons s args, by rw [Arguments.texts, hs, hargs], ?_⟩
        rw [Arguments.values, hvalue, hvalues]
        exact h

mutual

theorem exists_sum (built : functions.Built) (plain : functions.WithoutOperators)
    {text : List Char} {v : Float} (h : (ofChars text).eval functions = .ok v) :
    ∃ s : Sum, s.chars = text ∧ s.value functions = .ok v := by
  cases hsplit : splitSum? text with
  | none =>
    rw [Expression.ofChars_of_none hsplit] at h
    obtain ⟨sign, p, rfl, hvalue⟩ := exists_product built plain hsplit h
    exact ⟨.term sign p, rfl, hvalue⟩
  | some divided =>
    obtain ⟨left, o, right⟩ := divided
    have hshort := Expression.lengths_of_splitSum? hsplit
    have division := Expression.division_of_splitSum? hsplit
    obtain ⟨undivided, unsigned⟩ := Expression.undivided_right hsplit
    rw [Expression.ofChars_of_some hsplit, eval_binary] at h
    obtain ⟨x, hx, hnext⟩ := bind_eq_ok h
    obtain ⟨y, hy, hv⟩ := bind_eq_ok hnext
    obtain ⟨s, rfl, hs⟩ := exists_sum built plain hx
    obtain ⟨sign, p, rfl, hp⟩ := exists_product built plain undivided hy
    -- Only the first term of a sum may carry a sign.
    obtain rfl := signText_eq_nil unsigned
    obtain ⟨a, hchar, rfl⟩ := Additive.exists_of_recognised division.operator
    rw [a.apply_operator] at hv
    refine ⟨.more s a p, ?_, ?_⟩
    · rw [Sum.chars, hchar]
      exact division.split.symm
    · simp only [Sum.value, hs, hp]
      exact hv
termination_by (text.length, 3)

theorem exists_product (built : functions.Built) (plain : functions.WithoutOperators)
    {text : List Char} {v : Float} (undivided : splitSum? text = none)
    (h : (ofProduct text).eval functions = .ok v) :
    ∃ sign, ∃ p : Product, signText sign ++ p.chars = text ∧ p.value functions sign = .ok v := by
  cases hsplit : splitProduct? text with
  | none =>
    rw [Expression.ofProduct_of_none hsplit] at h
    obtain ⟨sign, f, rfl, hvalue⟩ := exists_signed built plain undivided h
    exact ⟨sign, .factor f, rfl, hvalue⟩
  | some divided =>
    obtain ⟨left, o, right⟩ := divided
    have hshort := Expression.lengths_of_splitProduct? hsplit
    have division := Expression.division_of_splitProduct? hsplit
    obtain ⟨undividedLeft, undividedRight, unsigned⟩ :=
      Expression.undivided_factors undivided hsplit
    rw [Expression.ofProduct_of_some hsplit, eval_binary] at h
    obtain ⟨x, hx, hnext⟩ := bind_eq_ok h
    obtain ⟨y, hy, hv⟩ := bind_eq_ok hnext
    obtain ⟨sign, p, rfl, hp⟩ := exists_product built plain undividedLeft hx
    obtain ⟨inner, f, rfl, hf⟩ := exists_signed built plain undividedRight hy
    obtain rfl := signText_eq_nil unsigned
    obtain ⟨z, hz, hzy⟩ := bind_eq_ok hf
    obtain rfl : z = y := Except.ok.inj hzy
    obtain ⟨m, hchar, rfl⟩ := Multiplicative.exists_of_recognised division.operator
    rw [m.apply_operator] at hv
    refine ⟨sign, .more p m f, ?_, ?_⟩
    · rw [Product.chars, hchar]
      simpa [signText] using division.split.symm
    · simp only [Product.value, hp, hz]
      exact hv
termination_by (text.length, 2)

/-- A second sign would divide the text. -/
theorem exists_signed (built : functions.Built) (plain : functions.WithoutOperators)
    {text : List Char} {v : Float} (undivided : splitSum? text = none)
    (h : (ofSigned text).eval functions = .ok v) :
    ∃ sign, ∃ f : Factor, signText sign ++ f.chars = text ∧
      (Product.factor f).value functions sign = .ok v := by
  by_cases hsign : ∃ negative rest, text = signChar negative :: rest
  · obtain ⟨negative, rest, rfl⟩ := hsign
    rw [Expression.ofSigned_cons, eval_signed] at h
    obtain ⟨x, hx, hv⟩ := bind_eq_ok h
    have hrest := (noneDivides_cons.1 (splitLast?_eq_none_iff.1 undivided)).2
    obtain ⟨sign, f, rfl, hf⟩ :=
      exists_signed built plain (splitLast?_eq_none_iff.2 hrest.of_left) hx
    have level : Level (signText sign ++ f.chars) := by
      cases sign with
      | none => exact f.operand.balanced.level
      | some b => exact (Sum.term (some b) (.factor f)).operand.balanced.level
    have hallowed : notExponentMark (signChar negative) = true := by
      cases negative <;> decide
    have hhead := Expression.NoneDivides.head rfl rfl hrest hallowed level
    -- Behind the sign comes no second one: the text would have been divided there.
    obtain rfl := signText_eq_nil fun d hd => additive?_eq_none_iff.1 (hhead d hd)
    obtain ⟨y, hy, hyx⟩ := bind_eq_ok hf
    obtain rfl : y = x := Except.ok.inj hyx
    refine ⟨some negative, f, ?_, ?_⟩
    · rw [signText_some]
      rfl
    · rw [Product.value, hy]
      exact hv
  · have unsigned := Expression.head_of_not_signed hsign
    rw [Expression.ofSigned_of_head unsigned] at h
    obtain ⟨f, rfl, hvalue⟩ := exists_factor built plain unsigned h
    refine ⟨none, f, rfl, ?_⟩
    rw [Product.value, hvalue]
    rfl
termination_by (text.length, 1)

theorem exists_factor (built : functions.Built) (plain : functions.WithoutOperators)
    {text : List Char} {v : Float} (unsigned : ∀ c ∈ text.head?, c ≠ '+' ∧ c ≠ '-')
    (h : (ofOperand text).eval functions = .ok v) :
    ∃ f : Factor, f.chars = text ∧ f.value functions = .ok v := by
  cases hcall : Expression.call? text with
  | none =>
    rw [Expression.ofOperand_of_none hcall, Expression.eval] at h
    exact ⟨.numeral ⟨text, v, h, unsigned⟩, rfl, rfl⟩
  | some parts =>
    obtain ⟨name, inner⟩ := parts
    have hshort := Expression.length_of_call? hcall
    have htext := Expression.call?_eq_some hcall
    by_cases hname : name = []
    · -- The parenthesis at the end need not belong to the one at the start, but what is between
      -- them has a value and so is the text of a tree.
      subst hname
      rw [Expression.ofOperand_of_group hcall, Expression.eval] at h
      obtain ⟨s, rfl, hvalue⟩ := exists_sum built plain h
      exact ⟨.group s, htext, hvalue⟩
    · rw [Expression.ofOperand_of_call hcall hname, Expression.eval] at h
      split at h
      · cases h
      · next f hget =>
        split at h
        · cases h
        · next values hvalues =>
          obtain ⟨args, hargs, hargsValue⟩ := exists_arguments (by
            intro piece member v hv
            have := Expression.length_le_of_mem_splitArguments member
            exact exists_sum built plain hv) hvalues
          refine ⟨.call (.ofFound built plain hget) args, ?_, ?_⟩
          · rw [Factor.chars, hargs, Expression.joinCommas_splitArguments]
            exact htext
          · simp only [Factor.value, Name.ofFound, hget, hargsValue]
            exact h
termination_by (text.length, 0)

end

/-! ## The functions a tree calls -/

mutual

def Sum.callees : Sum → List (List Char)
  | .term _ first => first.callees
  | .more left _ right => left.callees ++ right.callees

def Product.callees : Product → List (List Char)
  | .factor first => first.callees
  | .more left _ right => left.callees ++ right.callees

def Factor.callees : Factor → List (List Char)
  | .numeral _ => []
  | .group inner => inner.callees
  | .call name args => name.chars :: args.callees

def Arguments.callees : Arguments → List (List Char)
  | .nil => []
  | .cons first rest => first.callees ++ rest.callees

end

/-- The functions of these names are registered. -/
def Registered (functions : Repertoire) (names : List (List Char)) : Prop :=
  ∀ name ∈ names, functions.contains (String.ofList name) = true

theorem registered_append {front back : List (List Char)} (hfront : Registered functions front)
    (hback : Registered functions back) : Registered functions (front ++ back) := by
  intro name member
  obtain member | member := List.mem_append.1 member
  · exact hfront name member
  · exact hback name member

mutual

theorem Sum.registered : (s : Sum) → {v : Float} → s.value functions = .ok v →
    Registered functions s.callees
  | .term sign first, _, h => first.registered h
  | .more left o right, _, h => by
    obtain ⟨x, hx, hnext⟩ := bind_eq_ok h
    obtain ⟨y, hy, -⟩ := bind_eq_ok hnext
    exact registered_append (left.registered hx) (right.registered hy)

theorem Product.registered : (p : Product) → {sign : Option Bool} → {v : Float} →
    p.value functions sign = .ok v → Registered functions p.callees
  | .factor first, _, _, h => by
    obtain ⟨x, hx, -⟩ := bind_eq_ok h
    exact first.registered hx
  | .more left o right, _, _, h => by
    obtain ⟨x, hx, hnext⟩ := bind_eq_ok h
    obtain ⟨y, hy, -⟩ := bind_eq_ok hnext
    exact registered_append (left.registered hx) (right.registered hy)

theorem Factor.registered : (f : Factor) → {v : Float} → f.value functions = .ok v →
    Registered functions f.callees
  | .numeral _, _, _ => by
    intro name member
    cases member
  | .group inner, _, h => inner.registered h
  | .call name args, _, h => by
    rw [Factor.value] at h
    split at h
    · cases h
    · next f hget =>
      obtain ⟨xs, hxs, -⟩ := bind_eq_ok h
      intro callee member
      cases member with
      | head => simp [Repertoire.contains, hget]
      | tail _ member => exact args.registered hxs callee member

theorem Arguments.registered : (args : Arguments) → {values : List Float} →
    args.values functions = .ok values → Registered functions args.callees
  | .nil, _, _ => by
    intro name member
    cases member
  | .cons first rest, _, h => by
    obtain ⟨x, hx, hnext⟩ := bind_eq_ok h
    obtain ⟨xs, hxs, -⟩ := bind_eq_ok hnext
    exact registered_append (first.registered hx) (rest.registered hxs)

end

/-! ## What is accepted -/

/-- What is accepted balances its parentheses, joins no two operators and puts no group behind
another one. -/
theorem operand_of_evaluate (built : functions.Built) (plain : functions.WithoutOperators)
    {text : String} {v : Float} (h : functions.evaluate text = .ok v) :
    Expression.Operand (strip text.toList) := by
  obtain ⟨s, hs, -⟩ := exists_sum built plain (Repertoire.evaluate_eq_ok_iff.1 h).2
  exact hs ▸ s.operand

instance (c d : Char) : Decidable (Expression.Adjacent c d) :=
  inferInstanceAs (Decidable (_ ∧ _))

/-- The texts that have a value are, up to blanks, the texts of trees that have it. -/
theorem evaluate_eq_ok_iff_exists_tree (built : functions.Built)
    (plain : functions.WithoutOperators) :
    (∀ text v, functions.evaluate text = .ok v ↔
      (strip text.toList).length ≤ Expression.lengthLimit ∧
        ∃ tree : Sum, tree.chars = strip text.toList ∧ tree.value functions = .ok v ∧
          Registered functions tree.callees) ∧
    (∀ text v, functions.evaluate text = .ok v → Balanced (strip text.toList)) ∧
    ∀ text ∈ ["2*-3", "--5", "(1)(2)", "(1+2)(3+4)", "1+2)"], ∀ v,
      functions.evaluate text ≠ .ok v := by
  refine ⟨?_, ?_, ?_⟩
  · intro text v
    constructor
    · intro h
      obtain ⟨fits, heval⟩ := Repertoire.evaluate_eq_ok_iff.1 h
      obtain ⟨tree, htree, hvalue⟩ := exists_sum built plain heval
      exact ⟨fits, tree, htree, hvalue, tree.registered hvalue⟩
    · intro h
      obtain ⟨fits, tree, htree, hvalue, -⟩ := h
      refine Repertoire.evaluate_eq_ok_iff.2 ⟨fits, ?_⟩
      rw [← htree, tree.eval_chars functions, hvalue]
  · intro text v h
    exact (operand_of_evaluate built plain h).balanced
  · intro text member v h
    have operand := operand_of_evaluate built plain h
    have rejected : ∀ text ∈ ["2*-3", "--5", "(1)(2)", "(1+2)(3+4)", "1+2)"],
        ¬ (Balanced (strip text.toList) ∧ (strip text.toList).IsChain Expression.Adjacent) := by
      decide
    exact rejected text member ⟨operand.balanced, operand.tight⟩

theorem evaluate_eq_ok_iff_exists_tree_count :
    let count : Function :=
      { name := "count", arity := .atLeast 1, body := fun xs => .returned xs.length.toFloat }
    let known : Repertoire := ⟨[count.guard]⟩
    known.Built ∧ known.WithoutOperators ∧
      known.evaluate "1 + count( 1, (3) )*3" = .ok 7 ∧
      Balanced (strip "1 + count( 1, (3) )*3".toList) ∧
      ∀ v, known.evaluate "(1)(2)" ≠ .ok v := by
  intro count known
  have checked : Function.checkName "count" = .ok () := rfl
  have built : known.Built := Repertoire.built_single checked
  have plain : known.WithoutOperators := by decide
  obtain ⟨accepted, balanced, rejected⟩ := evaluate_eq_ok_iff_exists_tree built plain
  let one := Numeral.ofDecimal "1".toList ⟨1, 0⟩ (by decide)
  let three := Numeral.ofDecimal "3".toList ⟨3, 0⟩ (by decide)
  have hget : known.get? (String.ofList "count".toList) = some count.guard := by rfl
  let call : Factor := .call (.ofFound built plain hget)
    (.cons (.term none (.factor (.numeral one)))
      (.cons (.term none (.factor (.group (.term none (.factor (.numeral three)))))) .nil))
  let tree : Sum := .more (.term none (.factor (.numeral one))) .plus
    (.more (.factor call) .times (.numeral three))
  have computed : one.value + Nat.toFloat 2 * three.value = 7 := by decide +kernel
  have hvalue : tree.value known = .ok 7 := by
    rw [← computed]
    rfl
  have haccepted : known.evaluate "1 + count( 1, (3) )*3" = .ok 7 :=
    (accepted _ _).2 ⟨by decide, tree, by rfl, hvalue, tree.registered hvalue⟩
  exact ⟨built, plain, haccepted, balanced _ _ haccepted, rejected _ (by decide)⟩

end Reckoner.Grammar
