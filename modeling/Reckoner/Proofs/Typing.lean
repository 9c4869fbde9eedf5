import Reckoner.Proofs.Unclosed

/-! # Expressions being typed

What has been typed of an expression with a value should have a value or fail with a fault that
looks incomplete.  As long as all groups are closed it does (`Sum.looksTyped`, by induction on the
tree); with open groups the fault names the stuck piece, and that piece decides.

Two kinds of places are left out: those inside a function name or right behind it, and those inside
the words for the literals that are written as words.
-/

namespace Reckoner

open Expression (ofChars ofProduct ofSigned ofOperand splitSum? splitProduct? splitLast?
  splitLast?_append splitLast?_eq_none_iff noneDivides_append signChar)
open Text (Balanced Level joinCommas level_append_left_iff)
open Fault (isIncompleteText)
open Literal (infinityWord nanWord)

/-- A value, or a fault that looks like an expression still being typed. -/
def LooksTyped : Except Fault Float → Prop
  | .ok _ => True
  | .error fault => fault.isIncomplete = true

instance : DecidablePred LooksTyped
  | .ok _ => .isTrue True.intro
  | .error fault => inferInstanceAs (Decidable (fault.isIncomplete = true))

theorem looksTyped_bind {first : Except Fault Float} (h : LooksTyped first) (next : Float → Float) :
    LooksTyped (do
      let x ← first
      return next x) := by
  cases first with
  | ok x => exact True.intro
  | error fault => exact h

/-! ## Where typing may stop -/

/-- Between the two texts, or just before, a function name is being written. -/
def EndsInName (functions : Repertoire) (front back : List Char) : Prop :=
  ∃ f ∈ functions.functions, ∃ x y, f.name.toList = x ++ y ∧ x ≠ [] ∧ x <:+ front ∧
    y ++ ['('] <+: back

/-- Between the two texts a word is being written. -/
def EndsInWord (front back : List Char) : Prop :=
  ∃ word ∈ [infinityWord, nanWord], ∃ x y, word = x ++ y ∧ x ≠ [] ∧ y ≠ [] ∧ x <:+ front ∧
    y <+: back

structure Interruptible (functions : Repertoire) (front back : List Char) : Prop where
  name : ¬ EndsInName functions front back
  word : ¬ EndsInWord front back

variable {functions : Repertoire}

theorem Interruptible.of_append_left {before front back : List Char}
    (h : Interruptible functions (before ++ front) back) : Interruptible functions front back where
  name := by
    intro hname
    obtain ⟨f, member, x, y, hsplit, nonempty, hx, hy⟩ := hname
    exact h.name ⟨f, member, x, y, hsplit, nonempty, hx.trans (List.suffix_append _ _), hy⟩
  word := by
    intro hword
    obtain ⟨word, member, x, y, hsplit, hne, hne', hx, hy⟩ := hword
    exact h.word ⟨word, member, x, y, hsplit, hne, hne', hx.trans (List.suffix_append _ _), hy⟩

theorem Interruptible.of_append_right {front back behind : List Char}
    (h : Interruptible functions front (back ++ behind)) : Interruptible functions front back where
  name := by
    intro hname
    obtain ⟨f, member, x, y, hsplit, nonempty, hx, hy⟩ := hname
    exact h.name ⟨f, member, x, y, hsplit, nonempty, hx, hy.trans (List.prefix_append _ _)⟩
  word := by
    intro hword
    obtain ⟨word, member, x, y, hsplit, hne, hne', hx, hy⟩ := hword
    exact h.word ⟨word, member, x, y, hsplit, hne, hne', hx, hy.trans (List.prefix_append _ _)⟩

/-- Typing may stop in front of a character that neither opens a group nor stands in a name or a
word. -/
theorem interruptible_of_head {front back : List Char} {c : Char} (opening : c ≠ '(')
    (names : ∀ f ∈ functions.functions, c ∉ f.name.toList)
    (words : ∀ word ∈ [infinityWord, nanWord], c ∉ word) :
    Interruptible functions front (c :: back) where
  name := by
    intro hname
    obtain ⟨f, member, x, y, hsplit, -, -, hy⟩ := hname
    cases y with
    | nil => exact opening (List.cons_prefix_cons.1 hy).1.symm
    | cons d y =>
      obtain rfl := (List.cons_prefix_cons.1 hy).1
      exact names f member (by simp [hsplit])
  word := by
    intro hword
    obtain ⟨word, member, x, y, hsplit, -, nonempty, -, hy⟩ := hword
    obtain ⟨d, y, rfl⟩ := List.exists_cons_of_ne_nil nonempty
    obtain rfl := (List.cons_prefix_cons.1 hy).1
    exact words word member (by simp [hsplit])

/-! ## Literals -/

theorem looksTyped_parse {text : List Char}
    (h : (Literal.unsigned? text).isSome = true ∨ isIncompleteText text = true) :
    LooksTyped (Literal.parse text) := by
  cases h with
  | inl isSome =>
    obtain ⟨v, hv⟩ := Option.isSome_iff_exists.1 isSome
    rw [Literal.parse_of_unsigned? hv]
    exact True.intro
  | inr incomplete =>
    rw [Literal.parse]
    split
    · exact True.intro
    · simpa [LooksTyped, Fault.isIncomplete] using incomplete

/-- Words are left out, and of a decimal any beginning is a decimal or waits for more. -/
theorem looksTyped_literal {front back : List Char}
    (h : (Literal.unsigned? (front ++ back)).isSome = true)
    (stops : Interruptible functions front back) : LooksTyped (Literal.parse front) := by
  have word : front ++ back ∈ [infinityWord, nanWord] → LooksTyped (Literal.parse front) := by
    intro member
    by_cases hfront : front = []
    · exact looksTyped_parse (.inr (by rw [hfront]; rfl))
    · by_cases hback : back = []
      · rw [hback, List.append_nil] at h
        exact looksTyped_parse (.inl h)
      · exact absurd ⟨_, member, front, back, rfl, hfront, hback, List.suffix_refl _,
          List.prefix_refl _⟩ stops.word
  obtain hinfinity | hnan | hdecimal := Literal.unsigned?_isSome_iff.1 h
  · exact word (by simp [hinfinity])
  · exact word (by simp [hnan])
  · exact looksTyped_parse (Literal.decimal_typed hdecimal (List.prefix_append _ _))

theorem looksTyped_nil : LooksTyped ((ofOperand []).eval functions) := by
  rw [Expression.ofOperand_of_none rfl, Expression.eval]
  exact looksTyped_parse (.inr rfl)

namespace Grammar

/-! ## Closed groups -/

/-- The beginning of a text that is not divided is not divided, if groups are closed there. -/
theorem splitLast?_of_append {operator? : Char → Option Operator} {allowed : Char → Bool}
    {whole front back : List Char} (h : splitLast? operator? allowed whole = none)
    (hsplit : whole = front ++ back) (level : Level back) :
    splitLast? operator? allowed front = none := by
  rw [hsplit] at h
  exact splitLast?_eq_none_iff.2 ((noneDivides_append level).1 (splitLast?_eq_none_iff.1 h)).1

theorem level_back {whole front back : List Char} (balanced : Balanced whole)
    (hsplit : whole = front ++ back) (closed : Balanced front) : Level back :=
  (level_append_left_iff closed.level).1 (hsplit ▸ balanced.level)

theorem Factor.looksTyped : (f : Factor) → {v : Float} → f.value functions = .ok v →
    {front back : List Char} → f.chars = front ++ back → Balanced front →
    Interruptible functions front back → LooksTyped ((ofOperand front).eval functions)
  | .numeral literal, _, _, front, back, hsplit, _, stops => by
    have isSome := literal.isSome
    rw [Factor.chars] at hsplit
    have plain : '(' ∉ front := fun h =>
      (Expression.literal_plain isSome '(' (by simp [hsplit, h])).1 rfl
    rw [hsplit] at isSome
    rw [Expression.ofOperand_of_none (Expression.call?_eq_none_of_not_mem plain), Expression.eval]
    exact looksTyped_literal isSome stops
  | .group inner, v, value, front, back, hsplit, closed, _ => by
    -- Closed is only nothing of the group, or all of it.
    cases Text.group_of_append inner.operand.balanced hsplit closed.level with
    | inl hempty =>
      rw [hempty]
      exact looksTyped_nil
    | inr hall =>
      rw [hall, List.append_nil] at hsplit
      rw [← hsplit, (Factor.group inner).eval_chars functions, value]
      exact True.intro
  | .call name args, v, value, front, back, hsplit, closed, stops => by
    rw [Factor.chars] at hsplit
    obtain ⟨mid, hname, hback⟩ | ⟨mid, hfront, hinner⟩ := Text.append_cons_eq_append hsplit
    · by_cases hempty : front = []
      · rw [hempty]
        exact looksTyped_nil
      · -- The name is that of a function, since the call has a value.
        rw [Factor.value] at value
        split at value
        · cases value
        · next f hget =>
          obtain ⟨member, hfound⟩ := Repertoire.mem_of_get? hget
          refine absurd ⟨f, member, front, mid, ?_, hempty, List.suffix_refl _, ?_⟩ stops.name
          · rw [hfound, String.toList_ofList, hname]
          · exact ⟨_, by rw [hback, List.append_assoc]; rfl⟩
    · have balanced := Text.balanced_joinCommas fun text member =>
        (args.operand text member).balanced
      have level : Level ('(' :: mid) := by
        have hname := Text.level_of_not_mem (fun h => (name.plain _ h).1 rfl)
          (fun h => (name.plain _ h).2.1 rfl)
        exact (level_append_left_iff hname).1 (hfront ▸ closed.level)
      have hgroup : '(' :: (joinCommas args.texts ++ [')']) = ('(' :: mid) ++ back := by
        rw [hinner]
        rfl
      cases Text.group_of_append balanced hgroup level with
      | inl hempty => cases hempty
      | inr hall =>
        rw [hall, List.append_nil, ← Factor.chars] at hsplit
        rw [← hsplit, (Factor.call name args).eval_chars functions, value]
        exact True.intro

theorem Factor.looksTyped_unsigned (f : Factor) {v : Float} (value : f.value functions = .ok v)
    {front back : List Char} (hsplit : f.chars = front ++ back) (closed : Balanced front)
    (stops : Interruptible functions front back) :
    LooksTyped ((ofSigned front).eval functions) := by
  have hhead : ∀ c ∈ front.head?, c ≠ '+' ∧ c ≠ '-' := by
    intro c hc
    exact f.unsigned c (by simp_all [List.head?_append])
  rw [Expression.ofSigned_of_head hhead]
  exact f.looksTyped value hsplit closed stops

theorem Factor.looksTyped_signed (f : Factor) {v : Float} (value : f.value functions = .ok v)
    {sign : Option Bool} {front back : List Char}
    (hsplit : signText sign ++ f.chars = front ++ back) (closed : Balanced front)
    (stops : Interruptible functions front back) :
    LooksTyped ((ofSigned front).eval functions) := by
  cases sign with
  | none => exact f.looksTyped_unsigned value hsplit closed stops
  | some negative =>
    cases front with
    | nil =>
      rw [Expression.ofSigned_of_head (by simp)]
      exact looksTyped_nil
    | cons c front =>
      rw [signText_some] at hsplit
      obtain rfl := (List.cons.inj hsplit).1
      have hchar := Expression.operatorChars_plain (Expression.signChar_mem_operatorChars negative)
      rw [← List.nil_append (signChar negative :: front)] at closed stops
      have closedRest := closed.of_append_cons hchar.1 hchar.2.1 Text.level_nil
      rw [List.append_cons] at stops
      rw [Expression.ofSigned_cons, eval_signed]
      exact looksTyped_bind (f.looksTyped_unsigned value (List.cons.inj hsplit).2 closedRest
        stops.of_append_left) _

theorem Product.looksTyped : (p : Product) → {sign : Option Bool} → {v : Float} →
    p.value functions sign = .ok v → {front back : List Char} →
    signText sign ++ p.chars = front ++ back → Balanced front →
    Interruptible functions front back → LooksTyped ((ofProduct front).eval functions)
  | .factor f, sign, _, value, front, back, hsplit, closed, stops => by
    obtain ⟨x, hx, -⟩ := bind_eq_ok value
    have level := level_back (Sum.term sign (.factor f)).operand.balanced hsplit closed
    have undivided : splitProduct? front = none :=
      splitLast?_of_append (Product.splitProduct?_factor sign f) hsplit level
    rw [Expression.ofProduct_of_none undivided]
    exact f.looksTyped_signed hx hsplit closed stops
  | .more left o right, sign, _, value, front, back, hsplit, closed, stops => by
    obtain ⟨x, hx, hnext⟩ := bind_eq_ok value
    obtain ⟨y, hy, -⟩ := bind_eq_ok hnext
    rw [Product.chars, ← List.append_assoc] at hsplit
    obtain ⟨mid, hleft, rfl⟩ | ⟨mid, rfl, hright⟩ := Text.append_cons_eq_append hsplit
    · exact left.looksTyped hx hleft closed stops.of_append_right
    · have hchar := Expression.operatorChars_plain o.char_mem
      have closedRest := closed.of_append_cons hchar.1 hchar.2.1
        (Sum.term sign left).operand.balanced.level
      have level := level_back right.operand.balanced hright closedRest
      have hidden := right.hidden.2
      rw [hright] at hidden
      -- What is typed of the last factor hides its operators like the whole factor.
      have hdivided : splitProduct? (signText sign ++ left.chars ++ o.char :: mid) =
          some (signText sign ++ left.chars, o.operator, mid) :=
        splitLast?_append o.recognised (left.last_allowed sign) closedRest.level
          (hidden.of_append level)
      rw [List.append_cons] at stops
      rw [Expression.ofProduct_of_some hdivided, eval_binary, left.eval_chars functions sign, hx]
      exact looksTyped_bind (right.looksTyped_unsigned hy hright closedRest stops.of_append_left) _

/-- With all groups closed, what has been typed of an expression looks typed. -/
theorem Sum.looksTyped : (s : Sum) → {v : Float} → s.value functions = .ok v →
    {front back : List Char} → s.chars = front ++ back → Balanced front →
    Interruptible functions front back → LooksTyped ((ofChars front).eval functions)
  | .term sign first, _, value, front, back, hsplit, closed, stops => by
    have level := level_back (Sum.term sign first).operand.balanced hsplit closed
    have undivided : splitSum? front = none :=
      splitLast?_of_append (Sum.splitSum?_term sign first) hsplit level
    rw [Expression.ofChars_of_none undivided]
    exact first.looksTyped value hsplit closed stops
  | .more left o right, _, value, front, back, hsplit, closed, stops => by
    obtain ⟨x, hx, hnext⟩ := bind_eq_ok value
    obtain ⟨y, hy, -⟩ := bind_eq_ok hnext
    obtain ⟨mid, hleft, rfl⟩ | ⟨mid, rfl, hright⟩ := Text.append_cons_eq_append hsplit
    · exact left.looksTyped hx hleft closed stops.of_append_right
    · have hchar := Expression.operatorChars_plain o.char_mem
      have closedRest := closed.of_append_cons hchar.1 hchar.2.1 left.operand.balanced.level
      have level := level_back right.operand.1.balanced hright closedRest
      have hidden := right.hidden
      rw [hright] at hidden
      have hdivided : splitSum? (left.chars ++ o.char :: mid) =
          some (left.chars, o.operator, mid) :=
        splitLast?_append o.recognised left.operand.last_allowed closedRest.level
          (hidden.of_append level)
      rw [List.append_cons] at stops
      rw [Expression.ofChars_of_some hdivided, eval_binary, left.eval_chars functions, hx]
      exact looksTyped_bind (right.looksTyped hy hright closedRest stops.of_append_left) _

end Grammar

/-! ## Any beginning -/

theorem isIncompleteText_of_excess {text : List Char} (h : 0 < Text.excess text) :
    isIncompleteText text = true := by
  rw [Text.excess] at h
  unfold isIncompleteText
  split
  · rfl
  · simp
    omega

/-- The beginning of a text that is read without blanks is read as it stands. -/
theorem evaluate_beginning {front back : String}
    (fits : (Text.strip (front ++ back).toList).length ≤ Expression.lengthLimit)
    (blanks : Text.strip (front ++ back).toList = (front ++ back).toList) :
    functions.evaluate front = (ofChars front.toList).eval functions := by
  rw [String.toList_append] at fits blanks
  have hfront : Text.strip front.toList = front.toList :=
    List.filter_eq_self.2 fun c hc => List.filter_eq_self.1 blanks c (List.mem_append_left _ hc)
  have shorter : (Text.strip front.toList).length ≤ Expression.lengthLimit := by
    rw [blanks, List.length_append] at fits
    rw [hfront]
    omega
  rw [Repertoire.evaluate_of_fits functions shorter, hfront]

theorem looksTyped_of_failsStuck {e : Expression} (h : Expression.FailsStuck functions e) :
    LooksTyped (e.eval functions) ↔ isIncompleteText e.stuck = true := by
  rw [Expression.FailsStuck] at h
  rw [h, LooksTyped, Fault.isIncomplete, String.toList_ofList]

/-- What has been typed of an expression with a value looks typed if all groups are closed or the
stuck piece looks incomplete, and not otherwise; without commas it always does. -/
theorem looksTyped_evaluate_iff (built : functions.Built) (plain : functions.WithoutOperators)
    {front back : String} {v : Float} (accepted : functions.evaluate (front ++ back) = .ok v)
    (blanks : Text.strip (front ++ back).toList = (front ++ back).toList)
    (stops : Interruptible functions front.toList back.toList) :
    (LooksTyped (functions.evaluate front) ↔
      Balanced front.toList ∨ isIncompleteText (ofChars front.toList).stuck = true) ∧
    (',' ∉ front.toList → LooksTyped (functions.evaluate front)) := by
  obtain ⟨fits, heval⟩ := Repertoire.evaluate_eq_ok_iff.1 accepted
  obtain ⟨tree, htree, value⟩ := Grammar.exists_sum built plain heval
  have hsplit : tree.chars = front.toList ++ back.toList := by
    rw [htree, blanks, String.toList_append]
  rw [evaluate_beginning fits blanks]
  by_cases closed : Balanced front.toList
  · have typed := tree.looksTyped value hsplit closed stops
    simp [closed, typed]
  · have begins : front.toList <+: tree.chars ++ [')'] := by
      rw [hsplit, List.append_assoc]
      exact List.prefix_append _ _
    have fails := Grammar.failsStuck_sum built plain (.within tree value begins) closed
    rw [looksTyped_of_failsStuck fails]
    refine ⟨by simp [closed], ?_⟩
    intro commas
    -- A beginning of a balanced text is unbalanced only if it opens more than it closes.
    have opened : 0 < Text.excess front.toList := by
      have nonneg := tree.operand.balanced.excess_nonneg hsplit
      have level : ¬ Level front.toList := fun level =>
        closed (tree.operand.balanced.of_prefix ⟨_, hsplit.symm⟩ level)
      rw [Text.level_iff_excess] at level
      omega
    exact isIncompleteText_of_excess (Expression.excess_stuck_sum commas opened)

/-! ## A call that takes a parenthesis that is not its own -/

/-- One function, which counts its arguments. -/
def counting : Repertoire :=
  ⟨[Function.guard
    { name := "count", arity := .atLeast 0, body := fun xs => .returned xs.length.toFloat }]⟩

theorem counting_built : counting.Built := by
  have checked : Function.checkName "count" = .ok () := rfl
  exact Repertoire.built_single checked

theorem counting_withoutOperators : counting.WithoutOperators := by decide

theorem counting_accepts : counting.evaluate ("count(1)*count(1,(2)" ++ ")") =
    .ok (Nat.toFloat 1 * Nat.toFloat 2) := by
  have hget : counting.get? (String.ofList "count".toList) = counting.functions.head? := rfl
  let count : Grammar.Name := .ofFound counting_built counting_withoutOperators hget
  let one := Grammar.Numeral.ofDecimal "1".toList ⟨1, 0⟩ rfl
  let two := Grammar.Numeral.ofDecimal "2".toList ⟨2, 0⟩ rfl
  let first : Grammar.Sum := .term none (.factor (.numeral one))
  let second : Grammar.Sum :=
    .term none (.factor (.group (.term none (.factor (.numeral two)))))
  let tree : Grammar.Sum := .term none (.more (.factor (.call count (.cons first .nil)))
    .times (.call count (.cons first (.cons second .nil))))
  have htext : Text.strip ("count(1)*count(1,(2)" ++ ")").toList = tree.chars := by rfl
  have hvalue : tree.value counting = .ok (Nat.toFloat 1 * Nat.toFloat 2) := by rfl
  refine Repertoire.evaluate_eq_ok_iff.2 ⟨by decide, ?_⟩
  rw [htext, tree.eval_chars counting, hvalue]

/-- The first call ends at the last parenthesis, and its argument at the comma of the second one. -/
theorem evaluate_swallowed_parenthesis :
    counting.Built ∧ counting.WithoutOperators ∧
      (∃ v, counting.evaluate ("count(1)*count(1,(2)" ++ ")") = .ok v) ∧
      Interruptible counting "count(1)*count(1,(2)".toList ")".toList ∧
      counting.evaluate "count(1)*count(1,(2)" = .error (.invalidNumber "1)*count(1") ∧
      ¬ LooksTyped (counting.evaluate "count(1)*count(1,(2)") := by
  have hcall : Expression.call? "count(1)*count(1,(2)".toList =
      some ("count".toList, "1)*count(1,(2".toList) := by decide
  have hread : ofChars "count(1)*count(1,(2)".toList =
      .call "count".toList [ofChars "1)*count(1".toList, ofChars "(2".toList] := by
    rw [Expression.ofChars_of_undivided (by decide) (by decide) (by simp),
      Expression.ofOperand_of_call hcall (by decide)]
    rfl
  have hpiece : ofChars "1)*count(1".toList = .literal "1)*count(1".toList := by
    rw [Expression.ofChars_of_undivided (by decide) (by decide) (by simp),
      Expression.ofOperand_of_none (by decide)]
  have hfault : counting.evaluate "count(1)*count(1,(2)" =
      .error (.invalidNumber "1)*count(1") := by
    have htext : Text.strip "count(1)*count(1,(2)".toList = "count(1)*count(1,(2)".toList := by
      decide
    rw [Repertoire.evaluate_of_fits counting (by decide), htext, hread, hpiece]
    rfl
  refine ⟨counting_built, counting_withoutOperators, ⟨_, counting_accepts⟩,
    interruptible_of_head (by decide) (by decide) (by decide), hfault, ?_⟩
  rw [hfault]
  decide

theorem looksTyped_evaluate_iff_counting :
    counting.evaluate ("count(1)*count(" ++ "1,(2))") = .ok (Nat.toFloat 1 * Nat.toFloat 2) ∧
      Interruptible counting "count(1)*count(".toList "1,(2))".toList ∧
      LooksTyped (counting.evaluate "count(1)*count(") ∧
      (LooksTyped (counting.evaluate "count(1)*count(1,(2)") ↔
        Balanced "count(1)*count(1,(2)".toList ∨
          isIncompleteText (ofChars "count(1)*count(1,(2)".toList).stuck = true) := by
  have early : counting.evaluate ("count(1)*count(" ++ "1,(2))") =
      .ok (Nat.toFloat 1 * Nat.toFloat 2) := counting_accepts
  have stopsEarly : Interruptible counting "count(1)*count(".toList "1,(2))".toList :=
    interruptible_of_head (by decide) (by decide) (by decide)
  have stopsLate : Interruptible counting "count(1)*count(1,(2)".toList ")".toList :=
    interruptible_of_head (by decide) (by decide) (by decide)
  have typed := looksTyped_evaluate_iff counting_built counting_withoutOperators early (by decide)
    stopsEarly
  have swallowed := looksTyped_evaluate_iff counting_built counting_withoutOperators
    counting_accepts (by decide) stopsLate
  exact ⟨early, stopsEarly, typed.2 (by decide), swallowed.1⟩

end Reckoner
