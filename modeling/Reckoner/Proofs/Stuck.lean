import Reckoner.Proofs.Evaluation
import Reckoner.Proofs.Repertoires

/-! # Where an unbalanced text gets stuck

The reader counts parentheses and does not pair them, so it cuts an unbalanced text in the wrong
places: a call may end at a parenthesis that closes something else, and its arguments at commas that
are none of its own.  Whatever the cuts, evaluation comes to a piece that is no number, and which
one can be said without evaluating anything (`stuck`).

A piece shows an open group unless an argument was cut off in front of it: `excess_stuck_sum`.
-/

namespace Reckoner.Expression

open Text (Balanced Level excess excess_append level_iff_excess not_balanced_of_closing)

/-! ## Stuck pieces -/

/-- The characters of a name that a function may have. -/
def PlainName (name : List Char) : Prop :=
  ∀ c ∈ name, Function.isNameChar c = true ∧ c ∉ operatorChars

instance (name : List Char) : Decidable (PlainName name) :=
  decidable_of_iff (name.all fun c => Function.isNameChar c && c ∉ operatorChars)
    (by simp [PlainName])

theorem PlainName.ne_parenthesis {name : List Char} (h : PlainName name) {c : Char}
    (hc : c ∈ name) : c ≠ '(' ∧ c ≠ ')' := by
  have := (h c hc).1
  simp [Function.isNameChar] at this
  exact ⟨this.2.1, this.2.2.1⟩

theorem PlainName.level {name : List Char} (h : PlainName name) : Level name :=
  Text.level_of_not_mem (fun hopen => (h.ne_parenthesis hopen).1 rfl)
    (fun hclose => (h.ne_parenthesis hclose).2 rfl)

mutual

/-- The piece of an unbalanced expression that is no number: of two operands or several arguments
the first unbalanced one has it, and what stands in front of a parenthesis and is no name makes the
call as a whole that piece. -/
def stuck : Expression → List Char
  | literal text => text
  | binary _ left right => if Balanced left.chars then right.stuck else left.stuck
  | signed _ operand => operand.stuck
  | group inner => inner.stuck
  | call name args => if PlainName name then stuckOfAll args else chars (call name args)

def stuckOfAll : List Expression → List Char
  | [] => []
  | arg :: args => if Balanced arg.chars then stuckOfAll args else arg.stuck

end

/-- Evaluation ends at the stuck piece. -/
def FailsStuck (functions : Repertoire) (e : Expression) : Prop :=
  e.eval functions = .error (.invalidNumber (String.ofList e.stuck))

variable {functions : Repertoire}

theorem failsStuck_literal {text : List Char} (unbalanced : ¬ Balanced text) :
    FailsStuck functions (literal text) := by
  rw [FailsStuck, eval, stuck]
  cases h : Literal.parse text with
  | ok v => exact absurd (contained_of_parse h).balanced unbalanced
  | error fault =>
    rw [Literal.parse] at h
    split at h
    · cases h
    · exact h.symm

theorem failsStuck_left {o : Operator} {left right : Expression}
    (h : FailsStuck functions left) (unbalanced : ¬ Balanced left.chars) :
    FailsStuck functions (binary o left right) := by
  rw [FailsStuck] at h ⊢
  rw [eval, h, stuck, if_neg unbalanced]

theorem failsStuck_right {o : Operator} {left right : Expression} {x : Float}
    (hleft : left.eval functions = .ok x) (balanced : Balanced left.chars)
    (h : FailsStuck functions right) : FailsStuck functions (binary o left right) := by
  rw [FailsStuck] at h ⊢
  rw [eval, hleft, stuck, if_pos balanced]
  simp only [h]

theorem failsStuck_signed {negative : Bool} {operand : Expression}
    (h : FailsStuck functions operand) : FailsStuck functions (signed negative operand) := by
  rw [FailsStuck] at h ⊢
  rw [eval, h, stuck]

theorem failsStuck_group {inner : Expression} (h : FailsStuck functions inner) :
    FailsStuck functions (group inner) := by
  rw [FailsStuck] at h ⊢
  rw [eval, h, stuck]

/-- What is not plain is not the name of a function. -/
theorem failsStuck_call (built : functions.Built) (plain : functions.WithoutOperators)
    {name : List Char} {args : List Expression} (h : ¬ PlainName name) :
    FailsStuck functions (call name args) := by
  rw [FailsStuck, eval, stuck, if_neg h]
  cases hget : functions.get? (String.ofList name) with
  | none => rfl
  | some f =>
    obtain ⟨member, hname⟩ := Repertoire.mem_of_get? hget
    have checked := (Function.checkName_eq_ok_iff.1 (built.checked f member)).2
    have operators := plain f member
    rw [hname, String.toList_ofList] at checked operators
    exact absurd (fun c hc => ⟨checked c hc, operators c hc⟩) h

def FailsStuckAll (functions : Repertoire) (args : List Expression) : Prop :=
  evalAll functions args = .error (.invalidNumber (String.ofList (stuckOfAll args)))

theorem failsStuckAll_head {arg : Expression} {args : List Expression}
    (h : FailsStuck functions arg) (unbalanced : ¬ Balanced arg.chars) :
    FailsStuckAll functions (arg :: args) := by
  rw [FailsStuck] at h
  rw [FailsStuckAll, evalAll, h, stuckOfAll, if_neg unbalanced]

theorem failsStuckAll_tail {arg : Expression} {args : List Expression} {x : Float}
    (harg : arg.eval functions = .ok x) (balanced : Balanced arg.chars)
    (h : FailsStuckAll functions args) : FailsStuckAll functions (arg :: args) := by
  rw [FailsStuckAll] at h ⊢
  rw [evalAll, harg, stuckOfAll, if_pos balanced]
  simp only [h]

theorem failsStuck_args {name : List Char} {args : List Expression} {f : Function}
    (plain : PlainName name) (hget : functions.get? (String.ofList name) = some f)
    (h : FailsStuckAll functions args) : FailsStuck functions (call name args) := by
  rw [FailsStuckAll] at h
  rw [FailsStuck, eval, hget, stuck, if_pos plain]
  simp only [h]

/-- If a text reaches beyond the last argument, then in its first piece. -/
theorem failsStuckAll_last {last text rest : List Char} (balanced : Balanced last)
    (keeps : KeepsCommas 0 last) (begins : text <+: last ++ ')' :: rest)
    (unbalanced : ¬ Balanced text)
    (ih : ∀ piece, piece <+: text → ¬ Balanced piece → FailsStuck functions (ofChars piece)) :
    FailsStuckAll functions ((pieces 0 text).map ofChars) := by
  obtain ⟨back, rfl⟩ | ⟨back, rfl, hback⟩ := Text.prefix_append_cases begins
  · rw [pieces_eq_singleton keeps.of_append, List.map_singleton]
    exact failsStuckAll_head (ih text (List.prefix_refl _) unbalanced)
      (by rwa [chars_ofChars])
  · obtain rfl | ⟨back, rfl, -⟩ := List.prefix_cons_iff.1 hback
    · rw [List.append_nil] at unbalanced
      exact absurd balanced unbalanced
    · obtain ⟨first, more, hpieces, hfirst⟩ := pieces_append_closing balanced.level keeps back
      have hpiece : last ++ ')' :: first <+: last ++ ')' :: back :=
        (List.prefix_append_right_inj _).2 (List.cons_prefix_cons.2 ⟨rfl, hfirst⟩)
      have hunbalanced : ¬ Balanced (last ++ ')' :: first) :=
        not_balanced_of_closing balanced.level
      rw [hpieces, List.map_cons]
      exact failsStuckAll_head (ih _ hpiece hunbalanced) (by rwa [chars_ofChars])

/-! ## Open groups without commas -/

theorem not_balanced_of_excess {text : List Char} (opened : 0 < excess text) : ¬ Balanced text := by
  intro balanced
  have := level_iff_excess.1 balanced.level
  omega

/-- The left part of a division opens as much as the whole. -/
theorem Division.excess_left {operator? : Char → Option Operator} {allowed : Char → Bool}
    {text left right : List Char} {o : Operator}
    (h : Division operator? allowed text left o right) : excess left = excess text := by
  rw [h.split, excess_append, level_iff_excess.1 h.level, Int.add_zero]

theorem excess_group (inner : List Char) : excess ('(' :: (inner ++ [')'])) = excess inner := by
  have hopen : excess ['('] = 1 := rfl
  have hclose : excess [')'] = -1 := rfl
  rw [← List.singleton_append, excess_append, excess_append, hopen, hclose]
  omega

mutual

/-- Without commas no cut hides an open group from the stuck piece. -/
theorem excess_stuck_sum {text : List Char} (commas : ',' ∉ text) (opened : 0 < excess text) :
    0 < excess (ofChars text).stuck := by
  cases hsplit : splitSum? text with
  | none =>
    rw [ofChars_of_none hsplit]
    exact excess_stuck_product commas opened
  | some divided =>
    obtain ⟨left, o, right⟩ := divided
    have hshort := lengths_of_splitSum? hsplit
    have division := division_of_splitSum? hsplit
    have commasLeft : ',' ∉ left := fun h => commas (division.left_begins.subset h)
    -- Behind the operator the text is level, so what is open is open in front of it.
    rw [← division.excess_left] at opened
    rw [ofChars_of_some hsplit, stuck, chars_ofChars, if_neg (not_balanced_of_excess opened)]
    exact excess_stuck_sum commasLeft opened
termination_by (text.length, 3)

theorem excess_stuck_product {text : List Char} (commas : ',' ∉ text) (opened : 0 < excess text) :
    0 < excess (ofProduct text).stuck := by
  cases hsplit : splitProduct? text with
  | none =>
    rw [ofProduct_of_none hsplit]
    exact excess_stuck_signed commas opened
  | some divided =>
    obtain ⟨left, o, right⟩ := divided
    have hshort := lengths_of_splitProduct? hsplit
    have division := division_of_splitProduct? hsplit
    have commasLeft : ',' ∉ left := fun h => commas (division.left_begins.subset h)
    rw [← division.excess_left] at opened
    rw [ofProduct_of_some hsplit, stuck, chars_ofProduct, if_neg (not_balanced_of_excess opened)]
    exact excess_stuck_product commasLeft opened
termination_by (text.length, 2)

theorem excess_stuck_signed {text : List Char} (commas : ',' ∉ text) (opened : 0 < excess text) :
    0 < excess (ofSigned text).stuck := by
  by_cases hsign : ∃ negative rest, text = signChar negative :: rest
  · obtain ⟨negative, rest, rfl⟩ := hsign
    have hchar := operatorChars_plain (signChar_mem_operatorChars negative)
    have hempty : excess [signChar negative] = 0 :=
      level_iff_excess.1 ((Text.level_cons_iff hchar.1 hchar.2.1).2 Text.level_nil)
    rw [← List.singleton_append, excess_append, hempty, Int.zero_add] at opened
    rw [ofSigned_cons, stuck]
    exact excess_stuck_signed (fun h => commas (List.mem_cons_of_mem _ h)) opened
  · rw [ofSigned_of_head (head_of_not_signed hsign)]
    exact excess_stuck_operand commas opened
termination_by (text.length, 1)

theorem excess_stuck_operand {text : List Char} (commas : ',' ∉ text) (opened : 0 < excess text) :
    0 < excess (ofOperand text).stuck := by
  cases hcall : call? text with
  | none =>
    rw [ofOperand_of_none hcall, stuck]
    exact opened
  | some parts =>
    obtain ⟨name, inner⟩ := parts
    have hshort := length_of_call? hcall
    have htext := call?_eq_some hcall
    have commasInner : ',' ∉ inner := fun h => commas (by simp [← htext, h])
    by_cases hname : name = []
    · subst hname
      rw [List.nil_append] at htext
      rw [← htext, excess_group] at opened
      rw [ofOperand_of_group hcall, stuck]
      exact excess_stuck_sum commasInner opened
    · have hread := ofOperand_of_call hcall hname
      by_cases plain : PlainName name
      · rw [← htext, excess_append, level_iff_excess.1 plain.level, excess_group,
          Int.zero_add] at opened
        have unbalanced := not_balanced_of_excess opened
        have nonempty : inner ≠ [] := by
          intro h
          exact unbalanced (h ▸ Text.balanced_nil)
        -- Without commas there is one argument, and it is all that the call holds.
        rw [hread, splitArguments, if_neg nonempty,
          pieces_eq_singleton (keepsCommas_of_not_mem commasInner), List.map_singleton, stuck,
          if_pos plain, stuckOfAll, chars_ofChars, if_neg unbalanced]
        exact excess_stuck_sum commasInner opened
      · have hchars := chars_ofOperand text
        rw [hread] at hchars
        rw [hread, stuck, if_neg plain, hchars]
        exact opened
termination_by (text.length, 0)

end

end Reckoner.Expression
