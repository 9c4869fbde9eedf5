import Reckoner.Proofs.Acceptance
import Reckoner.Proofs.Stuck

/-! # Groups that are still open

What has been typed of an expression with a value gets stuck if it is unbalanced
(`failsStuck_sum`).  The induction is on the length of the text.  A piece of a text that is being
typed is again the beginning of a tree with a value, but with something behind that closes more than
was opened; or its first character is such a closing parenthesis (`Typed`).
-/

namespace Reckoner.Expression

open Text (Balanced Level append_cons_cases level_append_left_iff level_cons_iff
  not_balanced_of_closing)

/-! ## Chains with something behind them -/

variable {operator? : Char → Option Operator} {allowed : Char → Bool}

variable {text left right : List Char} {o : Operator}

/-- If a text is divided between a balanced and an unbalanced part, then the second part reaches
beyond any balanced text that the whole begins with. -/
theorem Division.overrun (h : Division operator? allowed text left o right)
    {whole rest : List Char} (balanced : Balanced whole) (begins : text <+: whole ++ ')' :: rest)
    (hleft : Balanced left) (unbalanced : ¬ Balanced right) :
    ∃ right' back, whole = left ++ o.char :: right' ∧ right = right' ++ back ∧
      back <+: ')' :: rest ∧ Level right' ∧ Level back := by
  have plain := operatorChars_plain (char_mem_operatorChars o)
  have levelAll : Level text := h.split ▸ (level_append_left_iff hleft.level).2 h.level
  obtain hwithin | ⟨back, hsplit, hback⟩ := Text.prefix_append_cases begins
  · have hall := balanced.of_prefix hwithin levelAll
    rw [h.split] at hall
    exact absurd (hall.of_append_cons plain.1 plain.2.1 hleft.level) unbalanced
  · -- The operator stands in the balanced text: behind it there is nothing or what closes it.
    have hend : ∀ rest', back ≠ o.char :: rest' := by
      intro rest' hback'
      rw [hback'] at hback
      exact plain.2.1 (List.cons_prefix_cons.1 hback).1
    rw [h.split] at hsplit
    obtain ⟨mid, hwhole, hrest⟩ | ⟨mid, hmid, hright⟩ :=
      Text.append_cons_eq_append hsplit
    · cases mid with
      | nil => exact absurd hrest (hend right)
      | cons d mid =>
        rw [hrest] at hback
        obtain rfl : d = ')' := (List.cons_prefix_cons.1 hback).1
        rw [hwhole] at hleft
        exact absurd hleft (not_balanced_of_closing balanced.level)
    · have levelMid := balanced.level
      rw [hmid, level_append_left_iff hleft.level, level_cons_iff plain.1 plain.2.1] at levelMid
      have levelRight := h.divides.level
      rw [hright, level_append_left_iff levelMid] at levelRight
      exact ⟨mid, back, hmid, hright, hback, levelMid, levelRight⟩

/-- A chain divides at its last operator, whatever level text follows it. -/
theorem Division.chain_unique {a b back : List Char} {d : Char}
    (h : Division operator? allowed text left o (right ++ back))
    (hd : (operator? d).isSome = true) (ha : ∃ e, a.getLast? = some e ∧ allowed e = true)
    (hb : Hidden operator? allowed b) (level : Level (b ++ back)) (levelRight : Level right)
    (hsplit : left ++ o.char :: right = a ++ d :: b) : left = a ∧ right = b := by
  obtain ⟨hleft, -, hright⟩ | ⟨mid, ha', hright⟩ | ⟨mid, hleft, hb'⟩ := append_cons_cases hsplit
  · exact ⟨hleft, hright⟩
  · -- The end of the chain would divide further to the right.
    have hlast := h.last
    subst ha' hright
    refine absurd ⟨hd, level, ?_⟩ (hlast mid d (b ++ back) (by simp))
    simpa using ha
  · have hdivides := h.divides
    subst hleft hb'
    refine absurd ⟨hdivides.operator, levelRight, ?_⟩ (hb (a ++ [d]) mid o.char right rfl)
    simpa using hdivides.before

end Reckoner.Expression

namespace Reckoner.Grammar

open Expression (ofChars ofProduct ofSigned ofOperand splitSum? splitProduct? Division Hidden
  FailsStuck FailsStuckAll failsStuckAll_last PlainName notExponentMark splitLast?_eq_none_iff
  pieces operatorChars signChar)
open Text (Balanced Level joinCommas level_append_left_iff not_balanced_of_closing)

variable {functions : Repertoire}

/-! ## Texts being typed -/

/-- What a piece of a text that is being typed may be. -/
inductive Typed (functions : Repertoire) : List Char → Prop where
  | within {text rest : List Char} {v : Float} (tree : Sum) (value : tree.value functions = .ok v)
      (begins : text <+: tree.chars ++ ')' :: rest) : Typed functions text
  | closed (rest : List Char) : Typed functions (')' :: rest)

theorem Typed.of_prefix {text front : List Char} (typed : Typed functions text)
    (hfront : front <+: text) (nonempty : front ≠ []) : Typed functions front := by
  cases typed with
  | within tree value begins => exact .within tree value (hfront.trans begins)
  | closed rest =>
    obtain ⟨c, front, rfl⟩ := List.exists_cons_of_ne_nil nonempty
    obtain rfl := (List.cons_prefix_cons.1 hfront).1
    exact .closed front

theorem Typed.exists_tree {text left : List Char} (typed : Typed functions text)
    (hleft : left <+: text) (nonempty : left ≠ []) (balanced : Balanced left) :
    ∃ (tree : Sum) (v : Float) (rest : List Char),
      tree.value functions = .ok v ∧ text <+: tree.chars ++ ')' :: rest := by
  cases typed with
  | @within _ rest v tree value begins => exact ⟨tree, v, rest, value, begins⟩
  | closed rest =>
    obtain ⟨c, left, rfl⟩ := List.exists_cons_of_ne_nil nonempty
    obtain rfl := (List.cons_prefix_cons.1 hleft).1
    exact absurd balanced (not_balanced_of_closing Text.level_nil)

/-- If a text that is being typed is divided behind a balanced part, then at the last operation of
its tree. -/
theorem Typed.divided {text left right : List Char} {o : Operator} (typed : Typed functions text)
    (division : Division Operator.additive? notExponentMark text left o right)
    (balanced : Balanced left) (unbalanced : ¬ Balanced right) :
    (∃ x, (ofChars left).eval functions = .ok x) ∧ Typed functions right := by
  obtain ⟨tree, v, rest, value, begins⟩ :=
    typed.exists_tree division.left_begins division.nonempty balanced
  obtain ⟨right', back, hchars, rfl, hback, levelRight, levelBack⟩ :=
    division.overrun tree.operand.balanced begins balanced unbalanced
  cases tree with
  | term sign first =>
    -- The operator would divide the tree, which is a single term.
    have undivided := splitLast?_eq_none_iff.1 (Sum.splitSum?_term sign first)
    exact absurd ⟨division.divides.operator, levelRight, division.divides.before⟩
      (undivided left _ right' hchars)
  | more s p q =>
    have level : Level (q.chars ++ back) :=
      (level_append_left_iff q.operand.1.balanced.level).2 levelBack
    have hoperator : (Operator.additive? p.char).isSome = true := by simp [p.recognised]
    obtain ⟨rfl, rfl⟩ := division.chain_unique hoperator s.operand.last_allowed q.hidden level
      levelRight hchars.symm
    obtain ⟨x, hx, hnext⟩ := bind_eq_ok value
    obtain ⟨y, hy, -⟩ := bind_eq_ok hnext
    -- The last term is a tree of its own, with the same rest behind it.
    refine ⟨⟨x, by rw [s.eval_chars functions, hx]⟩, ?_⟩
    exact .within (.term none q) hy ((List.prefix_append_right_inj _).2 hback)

/-- If the first term of such a text is divided behind a balanced part, then at its last
operation. -/
theorem Typed.divided_first {text left right : List Char} {o : Operator}
    (typed : Typed functions text)
    (division : Division Operator.multiplicative? (fun _ => true) text left o right)
    (undivided : splitSum? text = none) (balanced : Balanced left)
    (unbalanced : ¬ Balanced right) :
    (∃ x, (ofProduct left).eval functions = .ok x) ∧ Typed functions right := by
  obtain ⟨tree, v, rest, value, begins⟩ :=
    typed.exists_tree division.left_begins division.nonempty balanced
  obtain ⟨right', back, hchars, rfl, hback, levelRight, levelBack⟩ :=
    division.overrun tree.operand.balanced begins balanced unbalanced
  cases tree with
  | more s p q =>
    -- The text goes on behind the tree, so its last `+` or `-` would divide the text.
    have level : Level (q.chars ++ back) :=
      (level_append_left_iff q.operand.1.balanced.level).2 levelBack
    have hsplit : text = s.chars ++ p.char :: (q.chars ++ back) := by
      have := congrArg (· ++ back) hchars
      rw [division.split]
      simpa [Sum.chars] using this.symm
    refine absurd ⟨?_, level, ?_⟩ (splitLast?_eq_none_iff.1 undivided s.chars _ _ hsplit)
    · simp [p.recognised]
    · simpa using s.operand.last_allowed
  | term sign first =>
    cases first with
    | factor f =>
      have none := splitLast?_eq_none_iff.1 (Product.splitProduct?_factor sign f)
      exact absurd ⟨division.divides.operator, levelRight, division.divides.before⟩
        (none left _ right' hchars)
    | more first p f =>
      have level : Level (f.chars ++ back) :=
        (level_append_left_iff f.operand.balanced.level).2 levelBack
      have hoperator : (Operator.multiplicative? p.char).isSome = true := by simp [p.recognised]
      have hsplit : left ++ o.char :: right' =
          (signText sign ++ first.chars) ++ p.char :: f.chars := by
        rw [← hchars, Sum.chars, Product.chars, List.append_assoc]
      obtain ⟨rfl, rfl⟩ := division.chain_unique hoperator (first.last_allowed sign) f.hidden.2
        level levelRight hsplit
      obtain ⟨x, hx, hnext⟩ := bind_eq_ok value
      obtain ⟨y, hy, -⟩ := bind_eq_ok hnext
      have hvalue : (Sum.term none (.factor f)).value functions = .ok y := by
        simp only [Sum.value, Product.value, hy]
        rfl
      refine ⟨⟨x, by rw [first.eval_chars functions sign, hx]⟩, ?_⟩
      exact .within (.term none (.factor f)) hvalue ((List.prefix_append_right_inj _).2 hback)

/-! ## The first factor -/

/-- A text with a value begins with a sign or none and a factor with a value, and goes on with an
operator if at all. -/
structure Begins (functions : Repertoire) (text : List Char) (sign : Option Bool) (f : Factor)
    (back : List Char) : Prop where
  split : text = signText sign ++ (f.chars ++ back)
  value : ∃ x, f.value functions = .ok x
  operator : ∀ d ∈ back.head?, d ∈ operatorChars

theorem Begins.append {text back : List Char} {sign : Option Bool} {f : Factor}
    (h : Begins functions text sign f back) {c : Char} (hc : c ∈ operatorChars)
    (rest : List Char) : Begins functions (text ++ c :: rest) sign f (back ++ c :: rest) where
  split := by simp [h.split]
  value := h.value
  operator d hd := by
    cases back with
    | nil =>
      obtain rfl : c = d := by simpa using hd
      exact hc
    | cons e back => exact h.operator d hd

theorem Product.begins (p : Product) (sign : Option Bool) {v : Float}
    (value : p.value functions sign = .ok v) :
    ∃ f back, Begins functions (signText sign ++ p.chars) sign f back := by
  cases p with
  | factor f =>
    obtain ⟨x, hx, -⟩ := bind_eq_ok value
    exact ⟨f, [], by simp [Product.chars], ⟨x, hx⟩, by simp⟩
  | more left o right =>
    obtain ⟨x, hx, -⟩ := bind_eq_ok value
    obtain ⟨f, back, h⟩ := left.begins sign hx
    refine ⟨f, back ++ o.char :: right.chars, ?_⟩
    rw [Product.chars, ← List.append_assoc]
    exact h.append o.char_mem right.chars

theorem Sum.begins (s : Sum) {v : Float} (value : s.value functions = .ok v) :
    ∃ sign f back, Begins functions s.chars sign f back := by
  cases s with
  | term sign first => exact ⟨sign, first.begins sign value⟩
  | more left o right =>
    obtain ⟨x, hx, -⟩ := bind_eq_ok value
    obtain ⟨sign, f, back, h⟩ := left.begins hx
    exact ⟨sign, f, _, h.append o.char_mem right.chars⟩

/-! ## Without its sign -/

theorem Product.value_unsigned (p : Product) {sign : Option Bool} {v : Float}
    (value : p.value functions sign = .ok v) : ∃ x, p.value functions none = .ok x := by
  cases p with
  | factor f =>
    obtain ⟨x, hx, -⟩ := bind_eq_ok value
    exact ⟨x, by rw [Product.value, hx]; rfl⟩
  | more left o right =>
    obtain ⟨x, hx, hnext⟩ := bind_eq_ok value
    obtain ⟨y, hy, -⟩ := bind_eq_ok hnext
    obtain ⟨z, hz⟩ := left.value_unsigned hx
    exact ⟨o.apply z y, by rw [Product.value, hz, hy]; rfl⟩

/-- A sum that begins with a sign has a value without it. -/
theorem Sum.exists_unsigned : (s : Sum) → {v : Float} → s.value functions = .ok v →
    {negative : Bool} → {rest : List Char} → s.chars = signChar negative :: rest →
    ∃ (s' : Sum) (x : Float), s'.value functions = .ok x ∧ s'.chars = rest
  | .term none first, _, _, negative, rest, hchars => by
    have operator := first.operand.2 (signChar negative) (by
      rw [Sum.chars, signText, List.nil_append] at hchars
      simp [hchars])
    exact absurd (Expression.signChar_mem_operatorChars negative) operator
  | .term (some _) first, _, value, _, _, hchars => by
    rw [Sum.chars, signText_some] at hchars
    obtain ⟨-, hrest⟩ := List.cons.inj hchars
    obtain ⟨x, hx⟩ := first.value_unsigned value
    exact ⟨.term none first, x, hx, hrest⟩
  | .more left o right, _, value, negative, rest, hchars => by
    obtain ⟨x, hx, hnext⟩ := bind_eq_ok value
    obtain ⟨y, hy, -⟩ := bind_eq_ok hnext
    obtain ⟨c, front, hleft⟩ := List.exists_cons_of_ne_nil left.operand.nonempty
    rw [Sum.chars, hleft] at hchars
    obtain ⟨rfl, hrest⟩ := List.cons.inj hchars
    obtain ⟨left', z, hz, hleft'⟩ := left.exists_unsigned hx hleft
    refine ⟨.more left' o right, o.apply z y, ?_, ?_⟩
    · rw [Sum.value, hz, hy]
      rfl
    · rw [Sum.chars, hleft']
      exact hrest

theorem Typed.of_signed {negative : Bool} {rest : List Char}
    (typed : Typed functions (signChar negative :: rest)) : Typed functions rest := by
  generalize htext : signChar negative :: rest = text at typed
  cases typed with
  | closed back =>
    have := (List.cons.inj htext).1
    cases negative <;> simp [signChar] at this
  | @within _ back v tree value begins =>
    subst htext
    obtain ⟨c, front, hchars⟩ := List.exists_cons_of_ne_nil tree.operand.nonempty
    rw [hchars] at begins
    obtain ⟨rfl, hrest⟩ := List.cons_prefix_cons.1 begins
    obtain ⟨tree', x, hx, rfl⟩ := tree.exists_unsigned value hchars
    exact .within tree' hx hrest

/-! ## Calls and groups -/

/-- What a tree with a value begins with, seen with the rest behind the tree. -/
theorem Typed.first {text : List Char} (typed : Typed functions text) (nonempty : text ≠ []) :
    text.head? = some ')' ∨ ∃ sign, ∃ f : Factor, ∃ back rest x, f.value functions = .ok x ∧
      signText sign ++ (f.chars ++ back) = text ++ rest ∧
      ∀ d ∈ back.head?, d ∈ operatorChars ∨ d = ')' := by
  cases typed with
  | closed rest => exact .inl rfl
  | @within _ behind v tree value begins =>
    obtain ⟨sign, f, back, h⟩ := tree.begins value
    obtain ⟨x, hx⟩ := h.value
    obtain ⟨rest, hrest⟩ := begins
    refine .inr ⟨sign, f, back ++ ')' :: behind, rest, x, hx, ?_, ?_⟩
    · rw [hrest, h.split]
      simp
    · intro d hd
      cases back with
      | nil =>
        obtain rfl : ')' = d := by simpa using hd
        exact .inr rfl
      | cons e back => exact .inl (h.operator d hd)

theorem Typed.of_group {inner : List Char} (typed : Typed functions ('(' :: (inner ++ [')']))) :
    Typed functions inner := by
  obtain hclosed | ⟨sign, f, back, rest, x, hx, hsplit, -⟩ := typed.first (by simp)
  · simp at hclosed
  · cases sign with
    | some negative =>
      rw [signText_some] at hsplit
      have := (List.cons.inj hsplit).1
      cases negative <;> simp [signChar] at this
    | none =>
      cases f with
      | numeral literal =>
        have nonempty := Literal.ne_nil_of_isSome literal.isSome
        obtain ⟨c, text, htext⟩ := List.exists_cons_of_ne_nil nonempty
        rw [signText, List.nil_append, Factor.chars, htext] at hsplit
        have plain := Expression.literal_plain literal.isSome c (by simp [htext])
        exact absurd (List.cons.inj hsplit).1 plain.1
      | call name args =>
        obtain ⟨c, text, htext⟩ := List.exists_cons_of_ne_nil name.nonempty
        rw [signText, List.nil_append, Factor.chars, htext] at hsplit
        have plain := name.plain c (by simp [htext])
        exact absurd (List.cons.inj hsplit).1 plain.1
      | group s =>
        have hinner : s.chars ++ ')' :: back = inner ++ ')' :: rest := by
          simpa [signText, Factor.chars] using hsplit
        exact .within s hx ⟨')' :: rest, hinner.symm⟩

/-- A plain name in front of a parenthesis is that of the call with which the tree begins. -/
theorem Typed.of_call {name inner : List Char}
    (typed : Typed functions (name ++ '(' :: (inner ++ [')']))) (nonempty : name ≠ [])
    (plain : PlainName name) : ∃ f, ∃ args : Arguments, ∃ values rest,
      functions.get? (String.ofList name) = some f ∧ args.values functions = .ok values ∧
        inner <+: joinCommas args.texts ++ ')' :: rest := by
  have opening : '(' ∉ name := fun h => (plain.ne_parenthesis h).1 rfl
  obtain ⟨c, name', hname⟩ := List.exists_cons_of_ne_nil nonempty
  have hc : c ∈ name := by simp [hname]
  obtain hclosed | ⟨sign, f, back, rest, x, hx, hsplit, hback⟩ := typed.first (by simp)
  · obtain rfl : c = ')' := by simpa [hname] using hclosed
    exact absurd rfl (plain.ne_parenthesis hc).2
  · cases sign with
    | some negative =>
      rw [hname, signText_some] at hsplit
      obtain rfl := (List.cons.inj hsplit).1
      exact absurd (Expression.signChar_mem_operatorChars negative) (plain _ hc).2
    | none =>
      rw [signText, List.nil_append, List.append_assoc, List.cons_append] at hsplit
      cases f with
      | numeral literal =>
        -- Behind the literal stands what no plain name holds.
        obtain ⟨mid, hmid, hrest⟩ | ⟨mid, hmid, hrest⟩ := List.append_eq_append_iff.1 hsplit
        · cases mid with
          | nil =>
            obtain h | h := hback '(' (by rw [hrest]; rfl)
            · simp [operatorChars] at h
            · simp at h
          | cons d mid =>
            have hd : d ∈ name := by simp [hmid]
            obtain h | h := hback d (by rw [hrest]; rfl)
            · exact absurd h (plain d hd).2
            · exact absurd h (plain.ne_parenthesis hd).2
        · cases mid with
          | nil =>
            obtain h | h := hback '(' (by rw [← List.nil_append back, ← hrest]; rfl)
            · simp [operatorChars] at h
            · simp at h
          | cons d mid =>
            obtain rfl := (List.cons.inj hrest).1
            have hmem : '(' ∈ literal.text := by
              rw [show literal.text = name ++ '(' :: mid from hmid]
              simp
            exact absurd rfl (Expression.literal_plain literal.isSome _ hmem).1
      | group s =>
        rw [hname] at hsplit
        obtain rfl := (List.cons.inj hsplit).1
        exact absurd rfl (plain.ne_parenthesis hc).1
      | call callee args =>
        rw [Factor.chars, List.append_assoc, List.cons_append] at hsplit
        obtain ⟨hcallee, -, hinner⟩ | ⟨mid, hcallee, -⟩ | ⟨mid, hcallee, -⟩ :=
          Text.append_cons_cases hsplit
        · rw [Factor.value, hcallee] at hx
          split at hx
          · cases hx
          · next f hget =>
            obtain ⟨values, hvalues, -⟩ := bind_eq_ok hx
            refine ⟨f, args, values, back, hget, hvalues, ')' :: rest, ?_⟩
            simpa using hinner.symm
        · exact absurd (by simp [hcallee]) opening
        · exact absurd rfl (callee.plain '(' (by simp [hcallee])).1

/-! ## Arguments -/

/-- Of arguments that are being typed, the first unbalanced one is stuck. -/
theorem Arguments.failsStuckAll : (args : Arguments) → {values : List Float} →
    args.values functions = .ok values → {text rest : List Char} →
    text <+: joinCommas args.texts ++ ')' :: rest → ¬ Balanced text →
    (∀ piece, piece.length ≤ text.length → Typed functions piece → ¬ Balanced piece →
      FailsStuck functions (ofChars piece)) →
    FailsStuckAll functions ((pieces 0 text).map ofChars)
  | .nil, _, _, text, rest, begins, unbalanced, ih => by
    refine failsStuckAll_last Text.balanced_nil (Expression.keepsCommas_of_not_mem List.not_mem_nil)
      begins unbalanced ?_
    intro piece hpiece hunbalanced
    obtain rfl | ⟨back, rfl, -⟩ := List.prefix_cons_iff.1 (hpiece.trans begins)
    · exact absurd Text.balanced_nil hunbalanced
    · exact ih _ hpiece.length_le (.closed back) hunbalanced
  | .cons s args, _, value, text, rest, begins, unbalanced, ih => by
    obtain ⟨x, hx, hnext⟩ := bind_eq_ok value
    obtain ⟨xs, hxs, -⟩ := bind_eq_ok hnext
    have last : ∀ {rest}, text <+: s.chars ++ ')' :: rest →
        FailsStuckAll functions ((pieces 0 text).map ofChars) := fun begins =>
      failsStuckAll_last s.operand.balanced s.operand.commas begins unbalanced
        fun piece hpiece hunbalanced =>
          ih piece hpiece.length_le (.within s hx (hpiece.trans begins)) hunbalanced
    cases args with
    | nil => exact last begins
    | cons second others =>
      have hjoin : joinCommas (Arguments.cons s (.cons second others)).texts ++ ')' :: rest =
          s.chars ++ ',' :: (joinCommas (Arguments.cons second others).texts ++ ')' :: rest) := by
        simp [Arguments.texts, joinCommas]
      rw [hjoin] at begins
      obtain hwithin | ⟨back, rfl, hback⟩ := Text.prefix_append_cases begins
      · exact last (hwithin.trans (List.prefix_append _ [')']))
      · obtain rfl | ⟨back, rfl, hrest⟩ := List.prefix_cons_iff.1 hback
        · rw [List.append_nil] at unbalanced
          exact absurd s.operand.balanced unbalanced
        · have hunbalanced : ¬ Balanced back := fun h => unbalanced
            (Text.balanced_append s.operand.balanced (Text.balanced_cons (by decide) (by decide) h))
          have hmore := Arguments.failsStuckAll (.cons second others) hxs hrest hunbalanced
            fun piece hpiece => ih piece (by simp; omega)
          rw [Expression.pieces_append_comma s.operand.balanced.level s.operand.commas,
            List.map_cons]
          exact Expression.failsStuckAll_tail (by rw [s.eval_chars functions, hx])
            (by rw [Expression.chars_ofChars]; exact s.operand.balanced) hmore

/-! ## Unbalanced texts -/

mutual

theorem failsStuck_sum (built : functions.Built) (plain : functions.WithoutOperators)
    {text : List Char} (typed : Typed functions text) (unbalanced : ¬ Balanced text) :
    FailsStuck functions (ofChars text) := by
  cases hsplit : splitSum? text with
  | none =>
    rw [Expression.ofChars_of_none hsplit]
    exact failsStuck_product built plain hsplit typed unbalanced
  | some divided =>
    obtain ⟨left, o, right⟩ := divided
    have hshort := Expression.lengths_of_splitSum? hsplit
    have division := Expression.division_of_splitSum? hsplit
    rw [Expression.ofChars_of_some hsplit]
    by_cases balanced : Balanced left
    · have unbalancedRight : ¬ Balanced right := fun h => unbalanced (division.balanced balanced h)
      obtain ⟨⟨x, hx⟩, typedRight⟩ := typed.divided division balanced unbalancedRight
      -- The left part has a value, so evaluation goes on to the right one.
      exact Expression.failsStuck_right hx (by rwa [Expression.chars_ofChars])
        (failsStuck_product built plain (Expression.undivided_right hsplit).1 typedRight
          unbalancedRight)
    · have typedLeft := typed.of_prefix division.left_begins division.nonempty
      exact Expression.failsStuck_left (failsStuck_sum built plain typedLeft balanced)
        (by rwa [Expression.chars_ofChars])
termination_by (text.length, 3)

theorem failsStuck_product (built : functions.Built) (plain : functions.WithoutOperators)
    {text : List Char} (undivided : splitSum? text = none) (typed : Typed functions text)
    (unbalanced : ¬ Balanced text) : FailsStuck functions (ofProduct text) := by
  cases hsplit : splitProduct? text with
  | none =>
    rw [Expression.ofProduct_of_none hsplit]
    exact failsStuck_signed built plain typed unbalanced
  | some divided =>
    obtain ⟨left, o, right⟩ := divided
    have hshort := Expression.lengths_of_splitProduct? hsplit
    have division := Expression.division_of_splitProduct? hsplit
    rw [Expression.ofProduct_of_some hsplit]
    by_cases balanced : Balanced left
    · have unbalancedRight : ¬ Balanced right := fun h => unbalanced (division.balanced balanced h)
      obtain ⟨⟨x, hx⟩, typedRight⟩ :=
        typed.divided_first division undivided balanced unbalancedRight
      exact Expression.failsStuck_right hx (by rwa [Expression.chars_ofProduct])
        (failsStuck_signed built plain typedRight unbalancedRight)
    · have typedLeft := typed.of_prefix division.left_begins division.nonempty
      have undividedLeft := (Expression.undivided_factors undivided hsplit).1
      exact Expression.failsStuck_left
        (failsStuck_product built plain undividedLeft typedLeft balanced)
        (by rwa [Expression.chars_ofProduct])
termination_by (text.length, 2)

theorem failsStuck_signed (built : functions.Built) (plain : functions.WithoutOperators)
    {text : List Char} (typed : Typed functions text) (unbalanced : ¬ Balanced text) :
    FailsStuck functions (ofSigned text) := by
  by_cases hsign : ∃ negative rest, text = signChar negative :: rest
  · obtain ⟨negative, rest, rfl⟩ := hsign
    have hchar := Expression.operatorChars_plain (Expression.signChar_mem_operatorChars negative)
    have hrest : ¬ Balanced rest := fun h => unbalanced (Text.balanced_cons hchar.1 hchar.2.1 h)
    rw [Expression.ofSigned_cons]
    exact Expression.failsStuck_signed (failsStuck_signed built plain typed.of_signed hrest)
  · rw [Expression.ofSigned_of_head (Expression.head_of_not_signed hsign)]
    exact failsStuck_operand built plain typed unbalanced
termination_by (text.length, 1)

theorem failsStuck_operand (built : functions.Built) (plain : functions.WithoutOperators)
    {text : List Char} (typed : Typed functions text) (unbalanced : ¬ Balanced text) :
    FailsStuck functions (ofOperand text) := by
  cases hcall : Expression.call? text with
  | none =>
    rw [Expression.ofOperand_of_none hcall]
    exact Expression.failsStuck_literal unbalanced
  | some parts =>
    obtain ⟨name, inner⟩ := parts
    have hshort := Expression.length_of_call? hcall
    have htext := Expression.call?_eq_some hcall
    by_cases hname : name = []
    · subst hname
      rw [List.nil_append] at htext
      have hinner : ¬ Balanced inner := fun h => unbalanced (htext ▸ Text.balanced_group h)
      have typedInner : Typed functions inner := Typed.of_group (htext ▸ typed)
      rw [Expression.ofOperand_of_group hcall]
      exact Expression.failsStuck_group (failsStuck_sum built plain typedInner hinner)
    · rw [Expression.ofOperand_of_call hcall hname]
      by_cases plainName : PlainName name
      · have hinner : ¬ Balanced inner := by
          intro h
          have balancedName : Balanced name :=
            Text.balanced_of_not_mem (fun hopen => (plainName.ne_parenthesis hopen).1 rfl)
              (fun hclose => (plainName.ne_parenthesis hclose).2 rfl)
          exact unbalanced (htext ▸ Text.balanced_append balancedName (Text.balanced_group h))
        obtain ⟨f, args, values, rest, hget, hvalues, begins⟩ :=
          Typed.of_call (htext ▸ typed) hname plainName
        refine Expression.failsStuck_args plainName hget ?_
        have nonempty : inner ≠ [] := by
          intro h
          exact hinner (h ▸ Text.balanced_nil)
        rw [Expression.splitArguments, if_neg nonempty]
        exact args.failsStuckAll hvalues begins hinner fun piece _ typedPiece hpiece =>
          failsStuck_sum built plain typedPiece hpiece
      · -- What stands in front of the parenthesis was cut out of something larger.
        exact Expression.failsStuck_call built plain plainName
termination_by (text.length, 0)

end

end Reckoner.Grammar
