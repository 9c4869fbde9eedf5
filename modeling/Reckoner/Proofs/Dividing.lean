import Mathlib.Data.List.TakeWhile
import Reckoner.Expression.Split
import Reckoner.Proofs.Parentheses

/-! # Where a text divides, said without the scans

The scans keep a count of parentheses and stop at the first operator or comma they may use.  Here
the same places are described by what stands around them: an operator divides a text if the rest
behind it is level and the character before it allows it (`Divides`), and the last such operator is
the one that is found (`splitLast?_eq_some_iff`, `splitLast?_eq_none_iff`).

A text is `Hidden` if none of its operators can divide any text in which it stands level to the end;
such texts are what operators join.  `pieces_append` says how far the first argument reaches.
-/

namespace Reckoner.Expression

open Text (append_cons_cases Level Balanced level_append_right_iff level_cons_iff joinCommas)

variable {operator? : Char → Option Operator} {allowed : Char → Bool}

/-! ## Operators -/

/-- The operator `c` divides the text `left ++ c :: right`. -/
structure Divides (operator? : Char → Option Operator) (allowed : Char → Bool)
    (left : List Char) (c : Char) (right : List Char) : Prop where
  operator : (operator? c).isSome = true
  level : Level right
  before : ∃ d, left.getLast? = some d ∧ allowed d = true

/-- No operator in the part `right` divides the text `left ++ right`. -/
def NoneDivides (operator? : Char → Option Operator) (allowed : Char → Bool)
    (left right : List Char) : Prop :=
  ∀ a c b, right = a ++ c :: b → ¬ Divides operator? allowed (left ++ a) c b

theorem noneDivides_nil (left : List Char) : NoneDivides operator? allowed left [] := by
  intro a c b h
  simp at h

theorem noneDivides_cons {left right : List Char} {c : Char} :
    NoneDivides operator? allowed left (c :: right) ↔
      ¬ Divides operator? allowed left c right ∧
        NoneDivides operator? allowed (left ++ [c]) right := by
  constructor
  · intro h
    refine ⟨by simpa using h [] c right rfl, ?_⟩
    intro a c' b hb
    simpa using h (c :: a) c' b (by rw [hb]; rfl)
  · rintro ⟨hfirst, hrest⟩ a c' b h
    obtain ⟨rfl, hb⟩ | ⟨a', rfl, hb⟩ := List.cons_eq_append_iff.1 h
    · obtain ⟨rfl, rfl⟩ := List.cons.inj hb
      simpa using hfirst
    · simpa using hrest a' c' b hb

/-- In front of a level part the same operators divide as without that part. -/
theorem noneDivides_append {left right back : List Char} (level : Level back) :
    NoneDivides operator? allowed left (right ++ back) ↔
      NoneDivides operator? allowed left right ∧
        NoneDivides operator? allowed (left ++ right) back := by
  induction right generalizing left with
  | nil => simp [noneDivides_nil]
  | cons c right ih =>
    have hdivides : Divides operator? allowed left c (right ++ back) ↔
        Divides operator? allowed left c right :=
      ⟨fun h => ⟨h.operator, (level_append_right_iff level).1 h.level, h.before⟩,
        fun h => ⟨h.operator, (level_append_right_iff level).2 h.level, h.before⟩⟩
    rw [List.cons_append, noneDivides_cons, noneDivides_cons, ih, hdivides]
    simp [and_assoc]

/-- What divides a text divides it with anything in front. -/
theorem NoneDivides.of_left {left right : List Char}
    (h : NoneDivides operator? allowed left right) : NoneDivides operator? allowed [] right := by
  intro a c b hright hdivides
  obtain ⟨operator, level, d, hd, hallowed⟩ := hdivides
  refine h a c b hright ⟨operator, level, d, ?_, hallowed⟩
  simp_all [List.getLast?_append]

/-- Behind a character that allows it, an operator at the start of a level text divides. -/
theorem NoneDivides.head {left right : List Char} {c : Char} (hopen : operator? '(' = none)
    (hclose : operator? ')' = none) (h : NoneDivides operator? allowed (left ++ [c]) right)
    (hc : allowed c = true) (level : Level right) : ∀ d ∈ right.head?, operator? d = none := by
  intro d hd
  cases right with
  | nil => cases hd
  | cons e rest =>
    obtain rfl : e = d := by simpa using hd
    cases hop : operator? e with
    | none => rfl
    | some o =>
      have opening : e ≠ '(' := by
        intro same
        simp [same, hopen] at hop
      have closing : e ≠ ')' := by
        intro same
        simp [same, hclose] at hop
      refine absurd ⟨?_, (level_cons_iff opening closing).1 level, c, ?_, hc⟩
        (noneDivides_cons.1 h).1
      · simp [hop]
      · simp

/-- What a scan has behind it is described by how many parentheses it closes beyond those it
opens. -/
theorem depthBefore_eq {depth : Int} {c : Char} {right : List Char}
    (h : depth = right.count ')' - right.count '(') :
    depthBefore depth c = (c :: right).count ')' - (c :: right).count '(' := by
  unfold depthBefore
  split
  · next hc => subst hc; simp [h]; omega
  · split
    · next hc => subst hc; simp [h]; omega
    · next hclose hopen =>
      rw [List.count_cons_of_ne hclose, List.count_cons_of_ne hopen, h]

/-- What a search for the last dividing operator of a text has to answer. -/
def Finds (operator? : Char → Option Operator) (allowed : Char → Bool) (text : List Char) :
    Option (List Char × Operator × List Char) → Prop
  | none => NoneDivides operator? allowed [] text
  | some (left, o, right) => ∃ c, operator? c = some o ∧ text = left ++ c :: right ∧
      Divides operator? allowed left c right ∧ NoneDivides operator? allowed (left ++ [c]) right

theorem scanBack_finds {depth : Int} {right left : List Char}
    (hdepth : depth = right.count ')' - right.count '(')
    (hright : NoneDivides operator? allowed left.reverse right) :
    Finds operator? allowed (left.reverse ++ right)
      (scanBack operator? allowed depth right left) := by
  fun_induction scanBack operator? allowed depth right left with
  | case1 => simpa [Finds] using hright
  | case2 depth right c =>
    refine noneDivides_cons.2 ⟨?_, by simpa using hright⟩
    rintro ⟨-, -, d, hd, -⟩
    simp at hd
  | case3 depth right c before left o ho hcond =>
    -- Depth zero says that what has been scanned is level.
    have level : Level right := by
      have := hcond.1
      simp only [Level]
      omega
    exact ⟨c, ho, by simp, ⟨by simp [ho], level, before, by simp, hcond.2⟩, by simpa using hright⟩
  | case4 depth right c before left o ho hcond ih =>
    have stays : ¬ Divides operator? allowed (before :: left).reverse c right := by
      rintro ⟨-, level, d, hd, hallowed⟩
      obtain rfl : before = d := by simpa using hd
      simp only [Level] at level
      exact hcond ⟨by omega, hallowed⟩
    simpa using ih (depthBefore_eq hdepth) (noneDivides_cons.2 ⟨stays, by simpa using hright⟩)
  | case5 depth right c before left ho ih =>
    have stays : ¬ Divides operator? allowed (before :: left).reverse c right := by
      rintro ⟨hop, -⟩
      simp [ho] at hop
    simpa using ih (depthBefore_eq hdepth) (noneDivides_cons.2 ⟨stays, by simpa using hright⟩)

theorem splitLast?_finds (operator? : Char → Option Operator) (allowed : Char → Bool)
    (text : List Char) : Finds operator? allowed text (splitLast? operator? allowed text) := by
  have h : Finds operator? allowed (text.reverse.reverse ++ [])
      (scanBack operator? allowed 0 [] text.reverse) :=
    scanBack_finds (by simp) (noneDivides_nil _)
  simpa [splitLast?] using h

/-- Of two dividing operators the one further to the left has the other one behind it. -/
theorem finds_unique {text : List Char} {x y : Option (List Char × Operator × List Char)}
    (hx : Finds operator? allowed text x) (hy : Finds operator? allowed text y) : x = y := by
  have none_some : ∀ {z}, NoneDivides operator? allowed [] text →
      ¬ Finds operator? allowed text (some z) := by
    rintro ⟨l, o, r⟩ hnone ⟨c, -, htext, hdivides, -⟩
    exact hnone l c r htext (by simpa using hdivides)
  match x, y, hx, hy with
  | none, none, _, _ => rfl
  | none, some _, hx, hy => exact absurd hy (none_some hx)
  | some _, none, hx, hy => exact absurd hx (none_some hy)
  | some (l, o, r), some (l', o', r'), ⟨c, ho, htext, hdivides, hlast⟩,
      ⟨c', ho', htext', hdivides', hlast'⟩ =>
    -- The one further to the left would not be the last.
    rw [htext] at htext'
    obtain ⟨rfl, rfl, rfl⟩ | ⟨mid, rfl, hr⟩ | ⟨mid, rfl, hr⟩ := append_cons_cases htext'
    · rw [ho] at ho'
      rw [Option.some.inj ho']
    · exact absurd (by simpa using hdivides') (hlast mid c' r' hr)
    · exact absurd (by simpa using hdivides) (hlast' mid c r hr)

/-- A text is divided at its last dividing operator. -/
theorem splitLast?_eq_some_iff {text l r : List Char} {o : Operator} :
    splitLast? operator? allowed text = some (l, o, r) ↔
      ∃ c, operator? c = some o ∧ text = l ++ c :: r ∧
        Divides operator? allowed l c r ∧ NoneDivides operator? allowed (l ++ [c]) r := by
  constructor
  · intro h
    have hfinds := splitLast?_finds operator? allowed text
    rwa [h] at hfinds
  · intro h
    exact finds_unique (y := some (l, o, r)) (splitLast?_finds operator? allowed text) h

theorem splitLast?_eq_none_iff {text : List Char} :
    splitLast? operator? allowed text = none ↔ NoneDivides operator? allowed [] text := by
  constructor
  · intro h
    have hfinds := splitLast?_finds operator? allowed text
    rwa [h] at hfinds
  · intro h
    exact finds_unique (y := none) (splitLast?_finds operator? allowed text) h

/-! ## Texts that keep their operators to themselves -/

/-- Wherever the text stands with a level rest behind it, none of its operators divides. -/
def Hidden (operator? : Char → Option Operator) (allowed : Char → Bool) (text : List Char) : Prop :=
  ∀ left, NoneDivides operator? allowed left text

theorem hidden_of_no_operator {text : List Char} (h : ∀ c ∈ text, operator? c = none) :
    Hidden operator? allowed text := by
  rintro left a c b rfl ⟨hop, -⟩
  simp [h c (by simp)] at hop

theorem hidden_append {front back : List Char} (level : Level back)
    (hfront : Hidden operator? allowed front) (hback : Hidden operator? allowed back) :
    Hidden operator? allowed (front ++ back) := fun left =>
  (noneDivides_append level).2 ⟨hfront left, hback (left ++ front)⟩

/-- A level part at the front of a hidden level text is hidden. -/
theorem Hidden.of_append {front back : List Char} (h : Hidden operator? allowed (front ++ back))
    (level : Level back) : Hidden operator? allowed front := fun left =>
  ((noneDivides_append level).1 (h left)).1

theorem hidden_cons {c : Char} (hc : operator? c = none) {text : List Char}
    (h : Hidden operator? allowed text) : Hidden operator? allowed (c :: text) := by
  intro left
  refine noneDivides_cons.2 ⟨?_, h _⟩
  rintro ⟨hop, -⟩
  simp [hc] at hop

/-- Parentheses hide what stands in them from what stands outside. -/
theorem hidden_group (hopen : operator? '(' = none) (hclose : operator? ')' = none)
    {inner : List Char} (balanced : Balanced inner) :
    Hidden operator? allowed ('(' :: (inner ++ [')'])) := by
  refine hidden_cons hopen ?_
  intro left a c b hsplit hdivides
  have hlevel := hdivides.level
  obtain ⟨mid, rfl, hb⟩ | ⟨mid, rfl, hb⟩ := List.append_eq_append_iff.1 hsplit
  · -- The operator would be the closing parenthesis itself.
    have hmid : c = ')' := by
      cases mid with
      | nil => exact (List.cons.inj hb).1.symm
      | cons d mid =>
        have := congrArg List.length hb
        simp at this
    have := hdivides.operator
    simp [hmid, hclose] at this
  · cases mid with
    | nil =>
      have := hdivides.operator
      simp only [List.nil_append, List.cons.injEq] at hb
      simp [hb.1, hclose] at this
    | cons d mid =>
      obtain ⟨rfl, rfl⟩ := List.cons.inj hb
      have closed : mid.count '(' ≤ mid.count ')' :=
        balanced.closed (List.append_cons a c mid)
      exact Text.not_level_group_end closed hlevel

/-! ## Calls -/

theorem call?_append {name : List Char} (h : '(' ∉ name) (inner : List Char) :
    call? (name ++ '(' :: (inner ++ [')'])) = some (name, inner) := by
  have hname : ∀ c ∈ name, (decide (c ≠ '(')) = true := by
    intro c hc
    simpa using fun hopen : c = '(' => h (hopen ▸ hc)
  have hdrop : (name ++ '(' :: (inner ++ [')'])).dropWhile (· ≠ '(') = '(' :: (inner ++ [')']) := by
    rw [List.dropWhile_append_of_pos hname]
    simp
  have htake : (name ++ '(' :: (inner ++ [')'])).takeWhile (· ≠ '(') = name := by
    rw [List.takeWhile_append_of_pos hname]
    simp
  rw [call?, hdrop, htake]
  simp

theorem call?_eq_none_of_not_mem {text : List Char} (h : '(' ∉ text) : call? text = none := by
  have hdrop : text.dropWhile (· ≠ '(') = [] := by
    rw [List.dropWhile_eq_nil_iff]
    intro c hc
    simpa using fun hopen : c = '(' => h (hopen ▸ hc)
  rw [call?, hdrop]

/-! ## Arguments -/

open Text (excess excess_append excess_nil level_iff_excess)

/-- Read from a depth on, the text has no comma at depth zero. -/
def KeepsCommas (depth : Int) (text : List Char) : Prop :=
  ∀ a b, text = a ++ ',' :: b → depth + excess a ≠ 0

theorem keepsCommas_append {depth : Int} {front back : List Char}
    (hfront : KeepsCommas depth front) (hback : KeepsCommas (depth + excess front) back) :
    KeepsCommas depth (front ++ back) := by
  intro a b h
  obtain ⟨mid, rfl, hmid⟩ | ⟨mid, rfl, hmid⟩ := List.append_eq_append_iff.1 h
  · have := hback mid b hmid
    rwa [excess_append, ← Int.add_assoc]
  · cases mid with
    | nil =>
      have := hback [] b (by simpa using hmid.symm)
      simpa [excess_nil] using this
    | cons d mid =>
      obtain ⟨rfl, -⟩ := List.cons.inj hmid
      exact hfront a mid rfl

theorem keepsCommas_of_not_mem {depth : Int} {text : List Char} (h : ',' ∉ text) :
    KeepsCommas depth text := by
  rintro a b rfl
  exact absurd (by simp) h

theorem KeepsCommas.of_append {depth : Int} {front back : List Char}
    (h : KeepsCommas depth (front ++ back)) : KeepsCommas depth front := by
  rintro a b rfl
  exact h a (b ++ back) (by simp)

/-- Parentheses keep what is balanced inside them off depth zero. -/
theorem keepsCommas_group {inner : List Char} (balanced : Balanced inner) :
    KeepsCommas 0 ('(' :: (inner ++ [')'])) := by
  intro a b h
  obtain ⟨-, hb⟩ | ⟨a, rfl, hinner⟩ := List.cons_eq_append_iff.1 h
  · simp at hb
  · have hopen : excess ('(' :: a) = 1 + excess a := excess_append ['('] a
    obtain ⟨mid, rfl, hmid⟩ | ⟨mid, rfl, hmid⟩ := List.append_eq_append_iff.1 hinner
    · have hmid : ',' ∈ [')'] := hmid ▸ by simp
      simp at hmid
    · have := balanced.excess_nonneg rfl
      omega

theorem depthAfter_eq (depth : Int) (c : Char) : depthAfter depth c = depth + excess [c] := by
  unfold depthAfter
  split
  · next hc => subst hc; rfl
  · split
    · next hc => subst hc; rfl
    · next hopen hclose =>
      have : excess [c] = 0 := level_iff_excess.1
        (Text.level_of_not_mem (by simpa using Ne.symm hopen) (by simpa using Ne.symm hclose))
      omega

/-- The first argument reaches over a front that keeps its commas. -/
theorem pieces_append {depth : Int} {front back first : List Char} {more : List (List Char)}
    (h : KeepsCommas depth front) (hback : pieces (depth + excess front) back = first :: more) :
    pieces depth (front ++ back) = (front ++ first) :: more := by
  induction front generalizing depth with
  | nil => simpa [excess_nil] using hback
  | cons c front ih =>
    have hcomma : ¬ (c = ',' ∧ depth = 0) := by
      rintro ⟨rfl, rfl⟩
      exact h [] front rfl rfl
    have hdepth : depthAfter depth c + excess front = depth + excess (c :: front) := by
      rw [depthAfter_eq, Int.add_assoc, ← excess_append, List.singleton_append]
    have hkeeps : KeepsCommas (depthAfter depth c) front := by
      intro a b hsplit
      have := h (c :: a) b (by rw [hsplit]; rfl)
      rwa [depthAfter_eq, Int.add_assoc, ← excess_append, List.singleton_append]
    rw [List.cons_append, pieces, if_neg hcomma, ih hkeeps (by rwa [hdepth])]
    rfl

theorem pieces_eq_singleton {depth : Int} {text : List Char} (h : KeepsCommas depth text) :
    pieces depth text = [text] := by
  have hend : pieces (depth + excess text) [] = [[]] := rfl
  simpa using pieces_append h hend

theorem pieces_append_comma {front : List Char} (level : Level front) (h : KeepsCommas 0 front)
    (back : List Char) : pieces 0 (front ++ ',' :: back) = front :: pieces 0 back := by
  have hback : pieces (0 + excess front) (',' :: back) = [] :: pieces 0 back := by
    rw [level_iff_excess.1 level, pieces, if_pos ⟨rfl, rfl⟩]
    rfl
  simpa using pieces_append h hback

theorem prefix_of_pieces {depth : Int} {text first : List Char} {more : List (List Char)}
    (h : pieces depth text = first :: more) : first <+: text := by
  have hjoin := joinCommas_pieces depth text
  rw [h] at hjoin
  cases more with
  | nil => exact ⟨[], by simpa [joinCommas] using hjoin⟩
  | cons second others => exact ⟨_, hjoin⟩

/-- A parenthesis closed too early lets the first argument go on over commas. -/
theorem pieces_append_closing {front : List Char} (level : Level front) (h : KeepsCommas 0 front)
    (back : List Char) : ∃ first more,
      pieces 0 (front ++ ')' :: back) = (front ++ ')' :: first) :: more ∧ first <+: back := by
  cases hback : pieces (-1) back with
  | nil => exact absurd hback (pieces_ne_nil _ _)
  | cons first more =>
    have hclose : pieces (0 + excess front) (')' :: back) = (')' :: first) :: more := by
      rw [level_iff_excess.1 level, pieces, if_neg (by simp), depthAfter]
      simp [hback, Text.extendFirst]
    exact ⟨first, more, pieces_append h hclose, prefix_of_pieces hback⟩

/-- Level texts that keep their commas are read back from between the commas that join them. -/
theorem pieces_joinCommas {texts : List (List Char)} (hne : texts ≠ [])
    (h : ∀ text ∈ texts, Level text ∧ KeepsCommas 0 text) :
    pieces 0 (joinCommas texts) = texts := by
  induction texts with
  | nil => exact absurd rfl hne
  | cons first more ih =>
    obtain ⟨level, keeps⟩ := h first (List.mem_cons_self ..)
    cases more with
    | nil => exact pieces_eq_singleton keeps
    | cons second others =>
      have hmore := ih (by simp) fun text member => h text (List.mem_cons_of_mem _ member)
      rw [joinCommas, pieces_append_comma level keeps, hmore]
      simp

theorem splitArguments_joinCommas {texts : List (List Char)}
    (h : ∀ text ∈ texts, text ≠ [] ∧ Level text ∧ KeepsCommas 0 text) :
    splitArguments (joinCommas texts) = texts := by
  cases texts with
  | nil => rfl
  | cons first more =>
    have hne : joinCommas (first :: more) ≠ [] := by
      have hfirst := (h first (List.mem_cons_self ..)).1
      cases more <;> simp [joinCommas, hfirst]
    rw [splitArguments, if_neg hne]
    exact pieces_joinCommas (by simp) fun text member => (h text member).2

end Reckoner.Expression
