import Reckoner.Expression.Reading
import Reckoner.Proofs.Operands

/-! # Reading, one stage at a time

Each stage of the reader divides a text or hands it on.  A stage that divides does so at the last
operator that divides (`Division`).  A stage that hands on passes along what it has found out: a
product has no `+` or `-` left that divides it, and an operand begins with no sign
(`undivided_right`, `undivided_factors`).
-/

namespace Reckoner.Expression

open Text (Level Balanced balanced_append balanced_cons level_append_left_iff level_cons_iff)

/-! ## Reading by cases -/

theorem ofChars_of_some {text left right : List Char} {o : Operator}
    (h : splitSum? text = some (left, o, right)) :
    ofChars text = binary o (ofChars left) (ofProduct right) := by
  rw [ofChars]
  split
  · next left' o' right' h' =>
    rw [h] at h'
    simp only [Option.some.injEq, Prod.mk.injEq] at h'
    obtain ⟨rfl, rfl, rfl⟩ := h'
    rfl
  · next h' => simp [h] at h'

theorem ofChars_of_none {text : List Char} (h : splitSum? text = none) :
    ofChars text = ofProduct text := by
  rw [ofChars]
  split
  · next h' => simp [h] at h'
  · rfl

theorem ofProduct_of_some {text left right : List Char} {o : Operator}
    (h : splitProduct? text = some (left, o, right)) :
    ofProduct text = binary o (ofProduct left) (ofSigned right) := by
  rw [ofProduct]
  split
  · next left' o' right' h' =>
    rw [h] at h'
    simp only [Option.some.injEq, Prod.mk.injEq] at h'
    obtain ⟨rfl, rfl, rfl⟩ := h'
    rfl
  · next h' => simp [h] at h'

theorem ofProduct_of_none {text : List Char} (h : splitProduct? text = none) :
    ofProduct text = ofSigned text := by
  rw [ofProduct]
  split
  · next h' => simp [h] at h'
  · rfl

theorem ofSigned_cons (negative : Bool) (rest : List Char) :
    ofSigned (signChar negative :: rest) = signed negative (ofSigned rest) := by
  cases negative <;> rw [signChar, ofSigned.eq_def] <;> rfl

theorem ofSigned_of_head {text : List Char} (h : ∀ c ∈ text.head?, c ≠ '+' ∧ c ≠ '-') :
    ofSigned text = ofOperand text := by
  rw [ofSigned.eq_def]
  split
  · exact absurd rfl (h '+' rfl).1
  · exact absurd rfl (h '-' rfl).2
  · rfl

/-- A text that is not divided and begins with no sign is an operand. -/
theorem ofChars_of_undivided {text : List Char} (hsum : splitSum? text = none)
    (hproduct : splitProduct? text = none) (hhead : ∀ c ∈ text.head?, c ≠ '+' ∧ c ≠ '-') :
    ofChars text = ofOperand text := by
  rw [ofChars_of_none hsum, ofProduct_of_none hproduct, ofSigned_of_head hhead]

/-- What begins with no sign begins with neither of their characters. -/
theorem head_of_not_signed {text : List Char}
    (h : ¬ ∃ negative rest, text = signChar negative :: rest) :
    ∀ c ∈ text.head?, c ≠ '+' ∧ c ≠ '-' := by
  intro c hc
  obtain ⟨rest, rfl⟩ := List.head?_eq_some_iff.1 hc
  refine ⟨?_, ?_⟩
  · intro same
    exact h ⟨false, rest, by rw [same]; rfl⟩
  · intro same
    exact h ⟨true, rest, by rw [same]; rfl⟩

theorem ofOperand_of_none {text : List Char} (h : call? text = none) :
    ofOperand text = literal text := by
  rw [ofOperand]
  split
  · next h' => simp [h] at h'
  · next h' => simp [h] at h'
  · rfl

theorem ofOperand_of_group {text inner : List Char} (h : call? text = some ([], inner)) :
    ofOperand text = group (ofChars inner) := by
  rw [ofOperand]
  split
  · next inner' h' =>
    rw [h] at h'
    simp only [Option.some.injEq, Prod.mk.injEq, true_and] at h'
    rw [h']
  · next name inner' hname h' =>
    rw [h] at h'
    simp only [Option.some.injEq, Prod.mk.injEq] at h'
    exact absurd h'.1.symm hname
  · next h' => simp [h] at h'

theorem ofOperand_of_call {text name inner : List Char} (h : call? text = some (name, inner))
    (hname : name ≠ []) :
    ofOperand text = call name ((splitArguments inner).map ofChars) := by
  rw [ofOperand]
  split
  · next inner' h' =>
    rw [h] at h'
    simp only [Option.some.injEq, Prod.mk.injEq] at h'
    exact absurd h'.1 hname
  · next name' inner' hname' h' =>
    rw [h] at h'
    simp only [Option.some.injEq, Prod.mk.injEq] at h'
    obtain ⟨rfl, rfl⟩ := h'
    rw [List.attach_map_val (f := ofChars)]
  · next h' => simp [h] at h'

/-! ## Divisions -/

variable {operator? : Char → Option Operator} {allowed : Char → Bool}
variable {text left right : List Char} {o : Operator}

/-- What a stage knows about the two parts of a text that it divides. -/
structure Division (operator? : Char → Option Operator) (allowed : Char → Bool)
    (text left : List Char) (o : Operator) (right : List Char) : Prop where
  operator : operator? o.char = some o
  split : text = left ++ o.char :: right
  divides : Divides operator? allowed left o.char right
  last : NoneDivides operator? allowed (left ++ [o.char]) right

theorem division_of_splitSum? (h : splitSum? text = some (left, o, right)) :
    Division Operator.additive? notExponentMark text left o right := by
  obtain ⟨c, hc, htext, hdivides, hlast⟩ := splitLast?_eq_some_iff.1 h
  obtain rfl := Operator.char_of_additive? hc
  exact ⟨hc, htext, hdivides, hlast⟩

theorem division_of_splitProduct? (h : splitProduct? text = some (left, o, right)) :
    Division Operator.multiplicative? (fun _ => true) text left o right := by
  obtain ⟨c, hc, htext, hdivides, hlast⟩ := splitLast?_eq_some_iff.1 h
  obtain rfl := Operator.char_of_multiplicative? hc
  exact ⟨hc, htext, hdivides, hlast⟩

theorem Division.nonempty (h : Division operator? allowed text left o right) : left ≠ [] := by
  obtain ⟨d, hd, -⟩ := h.divides.before
  intro hempty
  rw [hempty] at hd
  cases hd

theorem Division.left_begins (h : Division operator? allowed text left o right) :
    left <+: text :=
  ⟨_, h.split.symm⟩

theorem Division.level (h : Division operator? allowed text left o right) :
    Level (o.char :: right) := by
  have plain := operatorChars_plain (char_mem_operatorChars o)
  exact (level_cons_iff plain.1 plain.2.1).2 h.divides.level

theorem Division.balanced (h : Division operator? allowed text left o right)
    (hleft : Balanced left) (hright : Balanced right) : Balanced text := by
  have plain := operatorChars_plain (char_mem_operatorChars o)
  rw [h.split]
  exact balanced_append hleft (balanced_cons plain.1 plain.2.1 hright)

theorem Division.undivided (h : Division operator? allowed text left o right) :
    splitLast? operator? allowed right = none :=
  splitLast?_eq_none_iff.2 h.last.of_left

theorem additive?_eq_none_iff {c : Char} :
    Operator.additive? c = none ↔ c ≠ '+' ∧ c ≠ '-' := by
  unfold Operator.additive?
  split <;> simp_all

/-- In front of its last dividing `+` or `-` a text may divide again, behind it not. -/
theorem undivided_right (h : splitSum? text = some (left, o, right)) :
    splitSum? right = none ∧ ∀ d ∈ right.head?, d ≠ '+' ∧ d ≠ '-' := by
  have division := division_of_splitSum? h
  refine ⟨division.undivided, ?_⟩
  -- An operator is no mark of an exponent, so a sign behind it would divide.
  have hallowed : notExponentMark o.char = true := by cases o <;> rfl
  intro d hd
  exact additive?_eq_none_iff.1 (division.last.head rfl rfl hallowed division.divides.level d hd)

/-- The factors of a product have no `+` or `-` of their own that divides. -/
theorem undivided_factors (undivided : splitSum? text = none)
    (h : splitProduct? text = some (left, o, right)) :
    splitSum? left = none ∧ splitSum? right = none ∧ ∀ d ∈ right.head?, d ≠ '+' ∧ d ≠ '-' := by
  have division := division_of_splitProduct? h
  rw [division.split] at undivided
  obtain ⟨hleft, hrest⟩ :=
    (noneDivides_append division.level).1 (splitLast?_eq_none_iff.1 undivided)
  have hright := (noneDivides_cons.1 hrest).2
  refine ⟨splitLast?_eq_none_iff.2 hleft, splitLast?_eq_none_iff.2 hright.of_left, ?_⟩
  have hallowed : notExponentMark o.char = true := by cases o <;> rfl
  intro d hd
  exact additive?_eq_none_iff.1 (hright.head rfl rfl hallowed division.divides.level d hd)

/-! ## Dividing written chains -/

theorem splitLast?_append {operator? : Char → Option Operator} {allowed : Char → Bool}
    {left right : List Char} {c : Char} {o : Operator} (hc : operator? c = some o)
    (hleft : ∃ d, left.getLast? = some d ∧ allowed d = true) (level : Level right)
    (hright : Hidden operator? allowed right) :
    splitLast? operator? allowed (left ++ c :: right) = some (left, o, right) :=
  splitLast?_eq_some_iff.2 ⟨c, hc, rfl, ⟨by simp [hc], level, hleft⟩, hright _⟩

theorem Operand.last_allowed {text : List Char} (h : Operand text) :
    ∃ d, text.getLast? = some d ∧ notExponentMark d = true := by
  refine ⟨text.getLast h.nonempty, List.getLast?_eq_some_getLast h.nonempty, ?_⟩
  have := (h.last _ (List.getLast?_eq_some_getLast h.nonempty)).2
  simpa [notExponentMark, Literal.IsMark] using this

end Reckoner.Expression
