import Reckoner.Proofs.Grammar
import Reckoner.Proofs.Reading

/-! # Evaluation follows the grammar

Reading a text and evaluating what was read gives every written tree the value the grammar says it
has, faults included (`evaluate_chars`).  The reader scans raw text, so the proof has to find the
top operation of each tree by the reader's rule: `splitSum?_more` and `splitProduct?_more` say that
the last operation of a chain is the one that divides it, `splitSum?_term` and
`splitProduct?_factor` that a chain of one is not divided at all.
-/

namespace Reckoner.Repertoire

open Expression (ofChars lengthLimit)
open Text (strip)

theorem evaluate_of_fits (functions : Repertoire) {text : String}
    (fits : (strip text.toList).length ≤ lengthLimit) :
    functions.evaluate text = (ofChars (strip text.toList)).eval functions :=
  if_neg (Nat.not_lt.2 fits)

theorem evaluate_eq_ok_iff {functions : Repertoire} {text : String} {v : Float} :
    functions.evaluate text = .ok v ↔ (strip text.toList).length ≤ lengthLimit ∧
      (ofChars (strip text.toList)).eval functions = .ok v := by
  by_cases fits : (strip text.toList).length ≤ lengthLimit
  · rw [evaluate_of_fits functions fits]
    simp [fits]
  · rw [evaluate, if_pos (Nat.lt_of_not_le fits)]
    simp [fits]

end Reckoner.Repertoire

namespace Reckoner.Grammar

open Expression (ofChars ofProduct ofSigned ofOperand splitSum? splitProduct? splitArguments
  splitLast?_append splitLast?_eq_none_iff noneDivides_cons signChar)
open Text (strip)

theorem Sum.splitSum?_more (left : Sum) (o : Additive) (right : Product) :
    splitSum? (Sum.more left o right).chars = some (left.chars, o.operator, right.chars) :=
  splitLast?_append o.recognised left.operand.last_allowed right.operand.1.balanced.level right.hidden

/-- A sign at the very start divides nothing, and neither does an operator behind a sign. -/
theorem Sum.splitSum?_term (sign : Option Bool) (first : Product) :
    splitSum? (Sum.term sign first).chars = none := by
  apply splitLast?_eq_none_iff.2
  cases sign with
  | none => exact first.hidden []
  | some negative =>
    rw [Sum.chars, signText_some]
    refine noneDivides_cons.2 ⟨?_, first.hidden _⟩
    intro hdivides
    obtain ⟨d, hd, -⟩ := hdivides.before
    simp at hd

theorem Product.last_allowed (p : Product) (sign : Option Bool) :
    ∃ d, (signText sign ++ p.chars).getLast? = some d ∧ true = true := by
  obtain ⟨d, hd, -⟩ := p.operand.1.last_allowed
  exact ⟨d, by simp [List.getLast?_append, hd], rfl⟩

theorem Product.splitProduct?_more (sign : Option Bool) (left : Product) (o : Multiplicative)
    (right : Factor) :
    splitProduct? (signText sign ++ (Product.more left o right).chars) =
      some (signText sign ++ left.chars, o.operator, right.chars) := by
  rw [Product.chars, ← List.append_assoc]
  exact splitLast?_append o.recognised (left.last_allowed sign) right.operand.balanced.level
    right.hidden.2

theorem Product.splitProduct?_factor (sign : Option Bool) (first : Factor) :
    splitProduct? (signText sign ++ (Product.factor first).chars) = none := by
  apply splitLast?_eq_none_iff.2
  cases sign with
  | none => exact first.hidden.2 []
  | some negative =>
    rw [signText_some]
    refine noneDivides_cons.2 ⟨?_, first.hidden.2 _⟩
    intro hdivides
    obtain ⟨d, hd, -⟩ := hdivides.before
    simp at hd

/-! ## The value of a written tree -/

theorem eval_binary (functions : Repertoire) (o : Operator) (left right : Expression) :
    (Expression.binary o left right).eval functions = (do
      let x ← left.eval functions
      let y ← right.eval functions
      return o.apply x y) := by
  rw [Expression.eval]
  cases left.eval functions with
  | error fault => rfl
  | ok x => cases right.eval functions <;> rfl

theorem eval_signed (functions : Repertoire) (negative : Bool) (operand : Expression) :
    (Expression.signed negative operand).eval functions = (do
      let x ← operand.eval functions
      return applySign (some negative) x) := by
  rw [Expression.eval]
  cases operand.eval functions with
  | error fault => rfl
  | ok x => cases negative <;> rfl

theorem eval_ofSigned (functions : Repertoire) (sign : Option Bool) (f : Factor) :
    (ofSigned (signText sign ++ f.chars)).eval functions =
      (do
        let x ← (ofOperand f.chars).eval functions
        return applySign sign x) := by
  have unsigned := Expression.ofSigned_of_head f.unsigned
  cases sign with
  | none =>
    rw [signText, List.nil_append, unsigned]
    cases (ofOperand f.chars).eval functions <;> rfl
  | some negative =>
    rw [signText_some, List.singleton_append, Expression.ofSigned_cons, eval_signed, unsigned]

mutual
theorem Sum.eval_chars (functions : Repertoire) : (s : Sum) →
    (ofChars s.chars).eval functions = s.value functions
  | .term sign first => by
    rw [Expression.ofChars_of_none (Sum.splitSum?_term sign first)]
    exact first.eval_chars functions sign
  | .more left o right => by
    have hright := right.eval_chars functions none
    rw [signText, List.nil_append] at hright
    rw [Expression.ofChars_of_some (Sum.splitSum?_more left o right), eval_binary,
      left.eval_chars functions, hright, o.apply_operator]
    rfl

theorem Product.eval_chars (functions : Repertoire) : (p : Product) → (sign : Option Bool) →
    (ofProduct (signText sign ++ p.chars)).eval functions = p.value functions sign
  | .factor first, sign => by
    rw [Expression.ofProduct_of_none (Product.splitProduct?_factor sign first), Product.chars,
      eval_ofSigned, first.eval_chars functions]
    rfl
  | .more left o right, sign => by
    rw [Expression.ofProduct_of_some (Product.splitProduct?_more sign left o right), eval_binary,
      left.eval_chars functions sign, Expression.ofSigned_of_head right.unsigned,
      right.eval_chars functions, o.apply_operator]
    rfl

theorem Factor.eval_chars (functions : Repertoire) : (f : Factor) →
    (ofOperand f.chars).eval functions = f.value functions
  | .numeral literal => by
    have plain : '(' ∉ literal.text := fun h =>
      (Expression.literal_plain literal.isSome _ h).1 rfl
    rw [Factor.chars, Expression.ofOperand_of_none (Expression.call?_eq_none_of_not_mem plain),
      Expression.eval, literal.reads]
    rfl
  | .group inner => by
    have hcall : Expression.call? ('(' :: (inner.chars ++ [')'])) = some ([], inner.chars) :=
      Expression.call?_append List.not_mem_nil inner.chars
    rw [Factor.chars, Expression.ofOperand_of_group hcall, Expression.eval,
      inner.eval_chars functions]
    rfl
  | .call name args => by
    have plain : '(' ∉ name.chars := fun h => (name.plain _ h).1 rfl
    have hcall := Expression.call?_append plain (Text.joinCommas args.texts)
    have hargs : splitArguments (Text.joinCommas args.texts) = args.texts := by
      apply Expression.splitArguments_joinCommas
      intro text member
      have h := args.operand text member
      exact ⟨h.nonempty, h.balanced.level, h.commas⟩
    have hread := Expression.ofOperand_of_call hcall name.nonempty
    -- The fault for an unknown function names the call as it was written.
    have htext := Expression.chars_ofOperand (Factor.call name args).chars
    rw [Factor.chars, hread, hargs] at htext
    rw [Factor.chars, hread, hargs, Expression.eval, htext]
    cases hget : functions.get? (String.ofList name.chars) with
    | none => simp [Factor.value, hget, Factor.chars]
    | some f =>
      simp only [Factor.value, hget, args.eval_texts functions]
      cases args.values functions <;> rfl

theorem Arguments.eval_texts (functions : Repertoire) : (args : Arguments) →
    Expression.evalAll functions (args.texts.map ofChars) = args.values functions
  | .nil => rfl
  | .cons first rest => by
    rw [Arguments.texts, List.map_cons, Expression.evalAll, first.eval_chars functions,
      rest.eval_texts functions, Arguments.values]
    cases first.value functions with
    | error fault => rfl
    | ok x => cases rest.values functions <;> rfl
end

/-- Wherever blanks stand in a written tree that is short enough to be read, evaluation gives the
value of the tree or its first fault. -/
theorem evaluate_chars (functions : Repertoire) (tree : Sum) (text : String)
    (written : strip text.toList = tree.chars)
    (fits : tree.chars.length ≤ Expression.lengthLimit) :
    functions.evaluate text = tree.value functions := by
  rw [functions.evaluate_of_fits (by rwa [written]), written]
  exact tree.eval_chars functions

theorem evaluate_chars_signed_product :
    let half := Numeral.ofDecimal "5e-1".toList ⟨5, -1⟩ (by decide)
    let one := Numeral.ofDecimal "1".toList ⟨1, 0⟩ (by decide)
    let two := Numeral.ofDecimal "2".toList ⟨2, 0⟩ (by decide)
    let four := Numeral.ofDecimal "4.".toList ⟨4, 0⟩ (by decide)
    let three : Sum := .more (.term none (.factor (.numeral one))) .plus (.factor (.numeral two))
    let tree : Sum := .more
      (.more (.term (some true) (.more (.factor (.numeral half)) .times (.numeral four)))
        .minus (.factor (.numeral one)))
      .minus (.more (.factor (.group three)) .divide (.numeral four))
    strip " - 5e-1 *4. -1 - ( 1+ 2)/4 .".toList = tree.chars ∧
      tree.chars.length ≤ Expression.lengthLimit ∧
      Repertoire.empty.evaluate " - 5e-1 *4. -1 - ( 1+ 2)/4 ." = tree.value .empty ∧
      tree.value .empty = .ok (-3.75) := by
  intro half one two four three tree
  have written : strip " - 5e-1 *4. -1 - ( 1+ 2)/4 .".toList = tree.chars := by decide
  have fits : tree.chars.length ≤ Expression.lengthLimit := by decide
  have value : tree.value .empty =
    .ok (-half.value * four.value - one.value - (one.value + two.value) / four.value) := rfl
  have computed :
      -half.value * four.value - one.value - (one.value + two.value) / four.value = -3.75 := by
    decide +kernel
  exact ⟨written, fits, evaluate_chars .empty tree _ written fits, by rw [value, computed]⟩

end Reckoner.Grammar
