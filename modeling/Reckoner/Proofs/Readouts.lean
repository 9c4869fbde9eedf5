import Reckoner.Proofs.Evaluation
import Reckoner.Proofs.LiteralGrammar
import Reckoner.Proofs.Shortest
import Reckoner.Readout

/-! # Literals and readouts as expressions

A literal is read in one piece when it stands alone, with its sign, and an evaluation takes the sign
off first and looks for operators behind it.  Both give the same float (`eval_literal`).  What is
shown for a number is a literal again, so evaluating it changes nothing (`evaluate_display`).
-/

namespace Reckoner

open Text (isBlank strip)

/-! ## Literals hold no blanks -/

namespace Literal

theorem isBlank_of_isPlain {c : Char} (plain : isPlain c = true) : isBlank c = false := by
  have digits {c : Char} (digit : c.isDigit = true) : isBlank c = false := by
    have range := range_of_isDigit digit
    simp only [isBlank, Text.blankRanges, List.any_cons, List.any_nil, Bool.or_eq_false_iff,
      Bool.and_eq_false_iff, decide_eq_false_iff_not, and_true]
    omega
  simp only [isPlain, Bool.or_eq_true, decide_eq_true_eq, List.mem_cons, List.not_mem_nil,
    or_false] at plain
  obtain digit | rfl | rfl | rfl | rfl | rfl := plain
  · exact digits digit
  all_goals decide

theorem strip_of_read? {text : List Char} {v : Float} (read : read? text = some v) :
    strip text = text := by
  obtain ⟨sign, body, negative, x, rfl, isSign, read, -⟩ := exists_of_read? read
  have front : strip sign = sign := by
    cases isSign <;> decide
  have back : strip body = body := by
    obtain rfl | rfl | decimal := unsigned?_isSome_iff.1 (Option.isSome_of_eq_some read)
    · decide
    · decide
    · apply List.filter_eq_self.2
      intro c hc
      have plain := List.all_eq_true.1 (isPlain_of_isSome .none decimal) c hc
      rw [isBlank_of_isPlain plain, Bool.not_false]
  rw [Text.strip_append, front, back]

theorem allBlank_of_read? {text : List Char} {v : Float} (read : read? text = some v) :
    Text.allBlank text = false := by
  rw [← Bool.not_eq_true, ← Text.strip_eq_nil_iff, strip_of_read? read]
  rintro rfl
  cases read

end Literal

/-! ## Literals in evaluations -/

namespace Grammar

open Literal (Sign)

/-- A sign that is part of a literal is one in front of a sum, too. -/
theorem exists_sign {sign : List Char} {negative : Bool} (isSign : Sign sign negative) :
    ∃ front, signText front = sign ∧ ∀ x, applySign front x = Binary64.signed negative x := by
  cases isSign with
  | none => exact ⟨none, rfl, fun x => rfl⟩
  | plus => exact ⟨some false, rfl, fun x => rfl⟩
  | minus => exact ⟨some true, rfl, fun x => rfl⟩

/-- An evaluation gives a literal the float that it stands for. -/
theorem eval_literal (functions : Repertoire) {text : List Char} {v : Float}
    (read : Literal.read? text = some v) : (Expression.ofChars text).eval functions = .ok v := by
  obtain ⟨sign, body, negative, x, rfl, isSign, unsigned, rfl⟩ := Literal.exists_of_read? read
  obtain ⟨front, rfl, applied⟩ := exists_sign isSign
  -- As a tree, the literal is a sum of one term, and the signs of its exponent are inside the term.
  have value := Sum.eval_chars functions
    (.term front (.factor (.numeral (Numeral.ofUnsigned body x unsigned))))
  rw [← applied]
  exact value

end Grammar

namespace Repertoire

open Expression (lengthLimit)

variable {text : String} {v : Float}

theorem evaluate_of_parse (functions : Repertoire) (fits : text.toList.length ≤ lengthLimit)
    (read : Literal.parse text.toList = .ok v) : functions.evaluate text = .ok v := by
  have value := Literal.parse_eq_ok_iff.1 read
  have whole := Literal.strip_of_read? value
  rw [functions.evaluate_of_fits (by rwa [whole]), whole]
  exact Grammar.eval_literal functions value

/-! ## Readouts -/

theorem display_zero : Number.display 0.0 = "0" := by
  decide +kernel

/-- What is shown for a number evaluates to a number that is shown alike. -/
theorem evaluate_display (functions : Repertoire) (x : Float) :
    ∃ v, functions.evaluate (Number.display x) = .ok v ∧ Number.display v = Number.display x := by
  have fits : (Number.display x).toList.length ≤ lengthLimit := by
    rw [Number.chars_display]
    exact (Number.length_chars_le x).trans (by decide)
  have read := Number.parse_chars x
  rw [← Number.chars_display] at read
  refine ⟨_, functions.evaluate_of_parse fits read, ?_⟩
  split
  · next zero =>
    -- The sign of a zero is not shown.
    rw [display_zero, Number.display, Number.chars, zero]
    rfl
  · rfl

/-- A readout of what is shown for a number shows it again. -/
theorem readout_display (functions : Repertoire) (x : Float) (mode : Mode) :
    (functions.readout (Number.display x) mode).fault = none ∧
      (functions.readout (Number.display x) mode).text = Number.display x := by
  obtain ⟨v, evaluated, alike⟩ := functions.evaluate_display x
  have written : Text.allBlank (Number.display x).toList = false := by
    rw [Number.chars_display]
    exact Literal.allBlank_of_read? (Literal.parse_eq_ok_iff.1 (Number.parse_chars x))
  rw [readout, written, if_neg Bool.false_ne_true, evaluated]
  exact ⟨rfl, alike⟩

/-- What is shown without a fault is the text of a number. -/
theorem exists_display {functions : Repertoire} {mode : Mode}
    (shown : (functions.readout text mode).fault = none) :
    ∃ x, (functions.readout text mode).text = Number.display x := by
  unfold readout at shown ⊢
  split at shown
  · next blank =>
    rw [if_pos blank]
    exact ⟨0.0, display_zero.symm⟩
  · next written =>
    rw [if_neg written]
    cases result : functions.evaluate text with
    | ok x => exact ⟨x, rfl⟩
    | error fault => simp [result, Readout.ofResult] at shown

/-- A literal that is short enough to be evaluated has the same value in an evaluation as alone,
whatever functions there are.  What a readout shows without a fault can be evaluated again, with any
functions, and is shown again. -/
theorem evaluate_literal (functions : Repertoire) :
    (∀ (text : String) (v : Float), text.toList.length ≤ lengthLimit →
      Literal.parse text.toList = .ok v → functions.evaluate text = .ok v) ∧
    ∀ (text : String) (mode : Mode), (functions.readout text mode).fault = none →
      ∀ (others : Repertoire) (again : Mode),
        (∃ v, others.evaluate (functions.readout text mode).text = .ok v ∧
          Number.display v = (functions.readout text mode).text) ∧
        (others.readout (functions.readout text mode).text again).fault = none ∧
        (others.readout (functions.readout text mode).text again).text =
          (functions.readout text mode).text := by
  constructor
  · intro text v fits read
    exact functions.evaluate_of_parse fits read
  · intro text mode shown others again
    obtain ⟨x, same⟩ := exists_display shown
    rw [same]
    exact ⟨others.evaluate_display x, others.readout_display x again⟩

theorem evaluate_literal_signed :
    let v := -(Decimal.mk 5 (-3)).toFloat
    "-5e-3".toList.length ≤ lengthLimit ∧ Literal.parse "-5e-3".toList = .ok v ∧
      empty.evaluate "-5e-3" = .ok v ∧ (empty.readout "-5e-3" .live).fault = none ∧
      (empty.readout (empty.readout "-5e-3" .live).text .final).text =
        (empty.readout "-5e-3" .live).text := by
  intro v
  have fits : "-5e-3".toList.length ≤ lengthLimit := by decide
  have read : Literal.parse "-5e-3".toList = .ok v := by
    rw [Literal.parse_eq_ok_iff]
    exact Literal.read?_of_sign .minus
      (Literal.unsigned?_of_decimal? (show Literal.decimal? "5e-3".toList = some ⟨5, -3⟩ by decide))
  obtain ⟨literal, readout⟩ := evaluate_literal empty
  have evaluated := literal "-5e-3" v fits read
  have shown : (empty.readout "-5e-3" .live).fault = none := by
    rw [Repertoire.readout, if_neg (by decide), evaluated]
    rfl
  exact ⟨fits, read, evaluated, shown, (readout "-5e-3" .live shown empty .final).2.2⟩

end Repertoire
end Reckoner
