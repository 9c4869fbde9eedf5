import Mathlib.Data.List.Chain
import Reckoner.Proofs.Dividing
import Reckoner.Proofs.Literals

/-! # What may stand between operators

Two descriptions of a text from outside.  A `Contained` text closes what it opens and keeps its
commas inside, so that it can be an argument whatever stands around it.  An `Operand` in addition
ends and holds together as a written expression does: no operator meets another one, and no group
another one.  Both are kept by each way of building a larger expression.
-/

namespace Reckoner.Expression

open Text (Level Balanced level_iff_excess excess_append balanced_append
  balanced_cons balanced_group balanced_joinCommas balanced_of_not_mem joinCommas)
open Literal (IsMark)

/-- The characters of the operations. -/
def operatorChars : List Char :=
  ['+', '-', '*', '/']

theorem char_mem_operatorChars (o : Operator) : o.char ∈ operatorChars := by
  cases o <;> decide

theorem signChar_mem_operatorChars (negative : Bool) : signChar negative ∈ operatorChars := by
  cases negative <;> decide

theorem operatorChars_plain {c : Char} (h : c ∈ operatorChars) : c ≠ '(' ∧ c ≠ ')' ∧ c ≠ ',' := by
  simp only [operatorChars, List.mem_cons, List.not_mem_nil, or_false] at h
  obtain rfl | rfl | rfl | rfl := h <;> decide

/-! ## Contained texts -/

structure Contained (text : List Char) : Prop where
  nonempty : text ≠ []
  balanced : Balanced text
  commas : KeepsCommas 0 text

theorem contained_of_plain {text : List Char} (nonempty : text ≠ [])
    (plain : ∀ c ∈ text, c ≠ '(' ∧ c ≠ ')' ∧ c ≠ ',') : Contained text where
  nonempty := nonempty
  balanced := balanced_of_not_mem (fun h => (plain _ h).1 rfl) (fun h => (plain _ h).2.1 rfl)
  commas := keepsCommas_of_not_mem fun h => (plain _ h).2.2 rfl

theorem contained_append {front back : List Char} (hfront : Contained front)
    (hback : Contained back) : Contained (front ++ back) where
  nonempty := by simp [hfront.nonempty]
  balanced := balanced_append hfront.balanced hback.balanced
  commas := by
    refine keepsCommas_append hfront.commas ?_
    rw [level_iff_excess.1 hfront.balanced.level]
    exact hback.commas

theorem contained_operator {c : Char} (h : c ∈ operatorChars) : Contained [c] :=
  contained_of_plain (by simp) (by simpa using operatorChars_plain h)

theorem contained_group {inner : List Char} (h : Balanced inner) :
    Contained ('(' :: (inner ++ [')'])) where
  nonempty := by simp
  balanced := balanced_group h
  commas := keepsCommas_group h

/-- A name in front does no harm, whatever operators it holds. -/
theorem contained_call {name : List Char} (plain : ∀ c ∈ name, c ≠ '(' ∧ c ≠ ')' ∧ c ≠ ',')
    {texts : List (List Char)} (h : ∀ text ∈ texts, Balanced text) :
    Contained (name ++ '(' :: (joinCommas texts ++ [')'])) := by
  have group := contained_group (balanced_joinCommas h)
  by_cases hname : name = []
  · simpa [hname] using group
  · exact contained_append (contained_of_plain hname plain) group

/-! ## Operands -/

/-- Whether two characters may follow each other in a written expression. -/
def Adjacent (c d : Char) : Prop :=
  ¬ (c ∈ operatorChars ∧ d ∈ operatorChars) ∧ ¬ (c = ')' ∧ d = '(')

structure Operand (text : List Char) : Prop extends Contained text where
  tight : text.IsChain Adjacent
  last : ∀ c, text.getLast? = some c → c ∉ operatorChars ∧ ¬ IsMark c

theorem adjacent_of_left {c d : Char} (operator : c ∉ operatorChars) (group : c ≠ ')') :
    Adjacent c d :=
  ⟨fun h => operator h.1, fun h => group h.1⟩

theorem adjacent_of_right {c d : Char} (operator : d ∉ operatorChars) (group : d ≠ '(') :
    Adjacent c d :=
  ⟨fun h => operator h.2, fun h => group h.2⟩

/-- An operand with an operator or a sign in front. -/
theorem tight_operator {c : Char} (hc : c ∈ operatorChars) {text : List Char} (h : Operand text)
    (hhead : ∀ d ∈ text.head?, d ∉ operatorChars) : (c :: text).IsChain Adjacent := by
  rw [List.isChain_cons]
  refine ⟨?_, h.tight⟩
  intro d hd
  exact ⟨fun both => hhead d hd both.2, fun both => (operatorChars_plain hc).2.1 both.1⟩

theorem operand_signed {c : Char} (hc : c ∈ operatorChars) {text : List Char} (h : Operand text)
    (hhead : ∀ d ∈ text.head?, d ∉ operatorChars) : Operand (c :: text) where
  toContained := contained_append (contained_operator hc) h.toContained
  tight := tight_operator hc h hhead
  last d hd := by
    obtain ⟨e, rest, rfl⟩ := List.exists_cons_of_ne_nil h.nonempty
    exact h.last d (by simpa using hd)

theorem operand_binary {c : Char} (hc : c ∈ operatorChars) {left right : List Char}
    (hleft : Operand left) (hright : Operand right)
    (hhead : ∀ d ∈ right.head?, d ∉ operatorChars) : Operand (left ++ c :: right) where
  toContained := contained_append hleft.toContained (operand_signed hc hright hhead).toContained
  tight := by
    refine List.isChain_append.2 ⟨hleft.tight, tight_operator hc hright hhead, ?_⟩
    intro d hd e he
    obtain rfl : c = e := by simpa using he
    exact ⟨fun both => (hleft.last d hd).1 both.1, fun both => (operatorChars_plain hc).1 both.2⟩
  last d hd := (operand_signed hc hright hhead).last d (by
    rw [List.getLast?_append] at hd
    simpa using hd)

theorem isMark_parenthesis : ')' ∉ operatorChars ∧ ¬ IsMark ')' := by
  refine ⟨by decide, ?_⟩
  simp [IsMark]

theorem tight_group {inner : List Char} (h : inner.IsChain Adjacent) :
    ('(' :: (inner ++ [')'])).IsChain Adjacent := by
  rw [List.isChain_cons]
  refine ⟨fun d _ => adjacent_of_left (by decide) (by decide), ?_⟩
  refine List.isChain_append.2 ⟨h, List.isChain_singleton _, ?_⟩
  intro c _ d hd
  obtain rfl : ')' = d := by simpa using hd
  exact adjacent_of_right (by decide) (by decide)

theorem operand_group {inner : List Char} (h : Operand inner) :
    Operand ('(' :: (inner ++ [')'])) where
  toContained := contained_group h.balanced
  tight := tight_group h.tight
  last c hc := by
    obtain rfl : ')' = c := by
      rw [← List.cons_append, List.getLast?_concat] at hc
      exact Option.some.inj hc
    exact isMark_parenthesis

theorem tight_joinCommas {texts : List (List Char)} (h : ∀ text ∈ texts, Operand text) :
    (joinCommas texts).IsChain Adjacent := by
  induction texts with
  | nil => exact List.isChain_nil
  | cons first more ih =>
    have hfirst := h first (List.mem_cons_self ..)
    cases more with
    | nil => exact hfirst.tight
    | cons second others =>
      have hmore := ih fun text member => h text (List.mem_cons_of_mem _ member)
      refine List.isChain_append.2 ⟨hfirst.tight, List.isChain_cons.2 ⟨?_, hmore⟩, ?_⟩
      · intro d _
        exact adjacent_of_left (by decide) (by decide)
      · intro c _ d hd
        obtain rfl : ',' = d := by simpa using hd
        exact adjacent_of_right (by decide) (by decide)

theorem operand_call {name : List Char}
    (plain : ∀ c ∈ name, c ≠ '(' ∧ c ≠ ')' ∧ c ≠ ',') (operators : ∀ c ∈ name, c ∉ operatorChars)
    {texts : List (List Char)} (h : ∀ text ∈ texts, Operand text) :
    Operand (name ++ '(' :: (joinCommas texts ++ [')'])) where
  toContained := contained_call plain fun text member => (h text member).balanced
  tight := by
    refine List.isChain_append.2 ⟨?_, tight_group (tight_joinCommas h), ?_⟩
    · refine List.isChain_iff_forall_rel_of_append_cons_cons.2 ?_
      intro c d front back hname
      have hmem : c ∈ name := by simp [hname]
      exact adjacent_of_left (operators c hmem) (plain c hmem).2.1
    · intro c hc d _
      have hmem := List.mem_of_getLast? hc
      exact adjacent_of_left (operators c hmem) (plain c hmem).2.1
  last c hc := by
    obtain rfl : ')' = c := by
      rw [← List.cons_append, ← List.append_assoc, List.getLast?_concat] at hc
      exact Option.some.inj hc
    exact isMark_parenthesis

/-! ## Literals -/

open Literal (not_mem_of_isSome mark_before_sign ne_nil_of_isSome last_of_isSome)

theorem literal_plain {text : List Char} (h : (Literal.unsigned? text).isSome = true) :
    ∀ c ∈ text, c ≠ '(' ∧ c ≠ ')' ∧ c ≠ ',' := by
  intro c hc
  have := not_mem_of_isSome h hc
  refine ⟨?_, ?_, ?_⟩ <;> intro heq <;> simp [heq] at this

/-- The only operators in a literal are signs. -/
theorem sign_of_operator {text : List Char} (h : (Literal.unsigned? text).isSome = true) {c : Char}
    (hc : c ∈ text) (operator : c ∈ operatorChars) : c = '+' ∨ c = '-' := by
  have := not_mem_of_isSome h hc
  simp only [operatorChars, List.mem_cons, List.not_mem_nil, or_false] at operator this
  tauto

theorem operand_literal {text : List Char} (h : (Literal.unsigned? text).isSome = true) :
    Operand text where
  toContained := contained_of_plain (ne_nil_of_isSome h) (literal_plain h)
  tight := by
    refine List.isChain_iff_forall_rel_of_append_cons_cons.2 ?_
    intro c d front back htext
    refine ⟨?_, fun both => (literal_plain h c (by simp [htext])).2.1 both.1⟩
    intro both
    -- The second operator would be a sign, and in front of a sign stands the mark.
    have hsign := sign_of_operator h (by simp [htext]) both.2
    obtain ⟨before, mark, hfront, isMark⟩ :=
      mark_before_sign (a := front ++ [c]) (b := back) h (by simp [htext]) hsign
    obtain ⟨-, hmark⟩ := List.append_inj' hfront rfl
    obtain rfl : c = mark := by simpa using hmark
    obtain rfl | rfl := isMark <;> simp [operatorChars] at both
  last c hc := by
    obtain ⟨isMark, plus, minus⟩ := last_of_isSome h hc
    refine ⟨?_, isMark⟩
    intro operator
    obtain hsign | hsign := sign_of_operator h (List.mem_of_getLast? hc) operator
    · exact plus hsign
    · exact minus hsign

/-- What is read as a number is contained, signs included. -/
theorem contained_of_parse {text : List Char} {v : Float} (h : Literal.parse text = .ok v) :
    Contained text := by
  have unsigned : ∀ {rest}, (Literal.unsigned? rest).isSome = true → Contained rest :=
    fun isSome => (operand_literal isSome).toContained
  cases hread : Literal.read? text with
  | none => simp [Literal.parse, hread] at h
  | some x =>
    unfold Literal.read? at hread
    split at hread
    · next rest =>
      obtain ⟨y, hy, -⟩ := Option.map_eq_some_iff.1 hread
      exact contained_append (contained_operator (c := '-') (by decide)) (unsigned (by simp [hy]))
    · next rest =>
      exact contained_append (contained_operator (c := '+') (by decide))
        (unsigned (by simp [hread]))
    · exact unsigned (by simp [hread])

/-- The signs in a literal do not divide. -/
theorem hidden_literal {text : List Char} (h : (Literal.unsigned? text).isSome = true) :
    Hidden Operator.additive? notExponentMark text := by
  intro left a c b htext hdivides
  have hsign : c = '+' ∨ c = '-' := by
    have := hdivides.operator
    unfold Operator.additive? at this
    split at this <;> simp_all
  obtain ⟨front, mark, rfl, isMark⟩ := mark_before_sign h htext hsign
  obtain ⟨d, hd, hallowed⟩ := hdivides.before
  obtain rfl : mark = d := by simpa [← List.append_assoc] using hd
  obtain rfl | rfl := isMark <;> simp [notExponentMark] at hallowed

end Reckoner.Expression
