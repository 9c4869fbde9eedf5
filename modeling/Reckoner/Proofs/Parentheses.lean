import Reckoner.Text.Fields

/-! # Balanced parentheses

A text is level if it closes as many parentheses as it opens, and balanced if in addition no
parenthesis is closed before it was opened.  Scans count parentheses and never pair them, so what a
scan sees depends on levels alone (`level_append_left_iff`, `level_append_right_iff`); what a
reader may rely on is balance.
-/

namespace Reckoner.Text

/-! ## Parts of a text -/

/-- Of two characters of a text the first is the second, or stands before it, or behind it. -/
theorem append_cons_cases {α : Type} {l r l' r' : List α} {c c' : α}
    (h : l ++ c :: r = l' ++ c' :: r') :
    (l = l' ∧ c = c' ∧ r = r') ∨
      (∃ mid, l' = l ++ c :: mid ∧ r = mid ++ c' :: r') ∨
      (∃ mid, l = l' ++ c' :: mid ∧ r' = mid ++ c :: r) := by
  obtain ⟨mid, hl, hr⟩ | ⟨mid, hl, hr⟩ := List.append_eq_append_iff.1 h
  · cases mid with
    | nil =>
      obtain ⟨hc, hrest⟩ := List.cons.inj hr
      exact .inl ⟨by simpa using hl.symm, hc, hrest⟩
    | cons d mid =>
      obtain ⟨rfl, hrest⟩ := List.cons.inj hr
      exact .inr (.inl ⟨mid, hl, hrest⟩)
  · cases mid with
    | nil =>
      obtain ⟨hc, hrest⟩ := List.cons.inj hr
      exact .inl ⟨by simpa using hl, hc.symm, hrest.symm⟩
    | cons d mid =>
      obtain ⟨rfl, hrest⟩ := List.cons.inj hr
      exact .inr (.inr ⟨mid, hl, hrest⟩)

/-- A beginning of a joined text lies in its front or goes beyond it. -/
theorem prefix_append_cases {α : Type} {s front back : List α} (h : s <+: front ++ back) :
    s <+: front ∨ ∃ rest, s = front ++ rest ∧ rest <+: back := by
  obtain h' | ⟨rest, rfl⟩ := List.prefix_or_prefix_of_prefix h (List.prefix_append front back)
  · exact .inl h'
  · exact .inr ⟨rest, rfl, (List.prefix_append_right_inj front).1 h⟩

/-- A text cut anywhere is cut in front of a given character or behind it. -/
theorem append_cons_eq_append {α : Type} {l r front back : List α} {c : α}
    (h : l ++ c :: r = front ++ back) :
    (∃ mid, l = front ++ mid ∧ back = mid ++ c :: r) ∨
      ∃ mid, front = l ++ c :: mid ∧ r = mid ++ back := by
  obtain ⟨mid, hfront, hrest⟩ | hleft := List.append_eq_append_iff.1 h
  · cases mid with
    | nil => exact .inl ⟨[], by simp [hfront], hrest.symm⟩
    | cons d mid =>
      obtain ⟨rfl, hr⟩ := List.cons.inj hrest
      exact .inr ⟨mid, hfront, hr⟩
  · exact .inl hleft

/-! ## Level texts -/

/-- As many parentheses are closed as are opened. -/
def Level (text : List Char) : Prop :=
  text.count '(' = text.count ')'

instance (text : List Char) : Decidable (Level text) :=
  inferInstanceAs (Decidable (_ = _))

theorem level_nil : Level [] := rfl

theorem count_of_not_mem {text : List Char} (opening : '(' ∉ text) (closing : ')' ∉ text) :
    text.count '(' = 0 ∧ text.count ')' = 0 :=
  ⟨List.count_eq_zero.2 opening, List.count_eq_zero.2 closing⟩

theorem level_of_not_mem {text : List Char} (opening : '(' ∉ text) (closing : ')' ∉ text) :
    Level text := by
  obtain ⟨opens, closes⟩ := count_of_not_mem opening closing
  rw [Level, opens, closes]

theorem level_append_left_iff {front back : List Char} (level : Level front) :
    Level (front ++ back) ↔ Level back := by
  simp only [Level, List.count_append] at *
  omega

theorem level_append_right_iff {front back : List Char} (level : Level back) :
    Level (front ++ back) ↔ Level front := by
  simp only [Level, List.count_append] at *
  omega

theorem level_cons_iff {c : Char} (opening : c ≠ '(') (closing : c ≠ ')') {rest : List Char} :
    Level (c :: rest) ↔ Level rest := by
  rw [Level, Level, List.count_cons_of_ne opening, List.count_cons_of_ne closing]

theorem not_level_group_end {front : List Char} (closes : front.count '(' ≤ front.count ')') :
    ¬ Level (front ++ [')']) := by
  have opened : (front ++ [')']).count '(' = front.count '(' := by simp
  have closed : (front ++ [')']).count ')' = front.count ')' + 1 := by simp
  rw [Level, opened, closed]
  omega

/-- How many parentheses a text opens beyond those it closes. -/
def excess (text : List Char) : Int :=
  text.count '(' - text.count ')'

theorem excess_nil : excess [] = 0 := rfl

theorem level_iff_excess {text : List Char} : Level text ↔ excess text = 0 := by
  simp only [Level, excess]
  omega

theorem excess_append (front back : List Char) :
    excess (front ++ back) = excess front + excess back := by
  simp only [excess, List.count_append]
  omega

/-! ## Balanced texts -/

/-- Every parenthesis that is closed was opened before, and every one that is opened is closed. -/
structure Balanced (text : List Char) : Prop where
  level : Level text
  opened : ∀ front back, text = front ++ back → front.count ')' ≤ front.count '('

theorem balanced_iff {text : List Char} :
    Balanced text ↔ Level text ∧
      ∀ n ≤ text.length, (text.take n).count ')' ≤ (text.take n).count '(' := by
  constructor
  · intro balanced
    refine ⟨balanced.level, fun n _ => ?_⟩
    exact balanced.opened _ _ (List.take_append_drop n text).symm
  · rintro ⟨level, opened⟩
    refine ⟨level, ?_⟩
    rintro front back rfl
    have := opened front.length (by simp)
    simpa using this

instance (text : List Char) : Decidable (Balanced text) :=
  decidable_of_iff _ balanced_iff.symm

theorem balanced_nil : Balanced [] := by
  refine ⟨level_nil, ?_⟩
  intro front back h
  obtain ⟨rfl, rfl⟩ := List.append_eq_nil_iff.1 h.symm
  exact Nat.le_refl _

/-- Behind any point of a balanced text at least as many parentheses are closed as opened. -/
theorem Balanced.closed {text front back : List Char} (balanced : Balanced text)
    (h : text = front ++ back) : back.count '(' ≤ back.count ')' := by
  have level := balanced.level
  have opened := balanced.opened front back h
  rw [h, Level, List.count_append, List.count_append] at level
  omega

theorem Balanced.excess_nonneg {text front back : List Char} (balanced : Balanced text)
    (h : text = front ++ back) : 0 ≤ excess front := by
  have := balanced.opened front back h
  simp only [excess]
  omega

theorem balanced_of_not_mem {text : List Char} (opening : '(' ∉ text) (closing : ')' ∉ text) :
    Balanced text := by
  refine ⟨level_of_not_mem opening closing, ?_⟩
  rintro front back rfl
  have none : front.count ')' = 0 :=
    List.count_eq_zero.2 fun h => closing (List.mem_append_left _ h)
  omega

theorem balanced_append {s t : List Char} (hs : Balanced s) (ht : Balanced t) :
    Balanced (s ++ t) := by
  refine ⟨(level_append_left_iff hs.level).2 ht.level, ?_⟩
  intro front back h
  obtain ⟨mid, rfl, rfl⟩ | ⟨mid, rfl, rfl⟩ := List.append_eq_append_iff.1 h
  · have level := hs.level
    have opened := ht.opened mid back rfl
    simp only [Level, List.count_append] at level ⊢
    omega
  · exact hs.opened front mid rfl

theorem balanced_cons {c : Char} (opening : c ≠ '(') (closing : c ≠ ')') {text : List Char}
    (h : Balanced text) : Balanced (c :: text) :=
  balanced_append (s := [c])
    (balanced_of_not_mem (by simpa using opening.symm) (by simpa using closing.symm)) h

/-- A balanced text in parentheses is balanced. -/
theorem balanced_group {inner : List Char} (h : Balanced inner) :
    Balanced ('(' :: (inner ++ [')'])) := by
  have level := h.level
  constructor
  · simp only [Level, List.count_cons, List.count_append, List.count_nil] at level ⊢
    simp [level]
  · intro front back hsplit
    obtain ⟨rfl, -⟩ | ⟨front', rfl, hinner⟩ := List.cons_eq_append_iff.1 hsplit
    · simp
    · obtain ⟨mid, rfl, hmid⟩ | ⟨mid, rfl, -⟩ := List.append_eq_append_iff.1 hinner
      · have : mid.count ')' ≤ 1 := by
          have := congrArg (List.count ')') hmid
          simp only [List.count_append, List.count_singleton_self] at this
          omega
        simp only [Level, List.count_cons, List.count_append] at level ⊢
        simp
        omega
      · have := h.opened front' mid rfl
        simp only [List.count_cons]
        simp
        omega

/-- A group is level only before it begins and after it has ended. -/
theorem group_of_append {inner front back : List Char} (h : Balanced inner)
    (hsplit : '(' :: (inner ++ [')']) = front ++ back) (level : Level front) :
    front = [] ∨ back = [] := by
  cases front with
  | nil => exact .inl rfl
  | cons c front =>
    obtain rfl : '(' = c := (List.cons.inj hsplit).1
    have hrest : inner ++ [')'] = front ++ back := (List.cons.inj hsplit).2
    by_cases hempty : back = []
    · exact .inr hempty
    · obtain ⟨back', hback⟩ : ∃ back', inner = front ++ back' := by
        rw [← List.dropLast_concat_getLast hempty, ← List.append_assoc] at hrest
        exact ⟨_, (List.append_inj' hrest rfl).1⟩
      -- Inside the group its own parenthesis is open.
      have opened := h.opened front back' hback
      simp only [Level, List.count_cons] at level
      simp at level
      omega

theorem balanced_joinCommas {texts : List (List Char)} (h : ∀ text ∈ texts, Balanced text) :
    Balanced (joinCommas texts) := by
  induction texts with
  | nil => exact balanced_nil
  | cons first more ih =>
    have hfirst := h first (List.mem_cons_self ..)
    cases more with
    | nil => exact hfirst
    | cons second others =>
      have hmore := ih fun text member => h text (List.mem_cons_of_mem _ member)
      exact balanced_append hfirst (balanced_cons (by decide) (by decide) hmore)

/-- A part at the front of a balanced text is balanced as soon as it is level. -/
theorem Balanced.of_prefix {text front : List Char} (h : Balanced text) (hfront : front <+: text)
    (level : Level front) : Balanced front := by
  obtain ⟨back, rfl⟩ := hfront
  refine ⟨level, ?_⟩
  rintro start rest rfl
  exact h.opened start (rest ++ back) (by simp)

theorem Balanced.of_append {front back : List Char} (h : Balanced (front ++ back))
    (level : Level front) : Balanced back := by
  refine ⟨(level_append_left_iff level).1 h.level, ?_⟩
  intro start rest hback
  have opened := h.opened (front ++ start) rest (by rw [hback, List.append_assoc])
  simp only [Level, List.count_append] at level opened
  omega

theorem Balanced.of_append_cons {front back : List Char} {c : Char}
    (h : Balanced (front ++ c :: back)) (opening : c ≠ '(') (closing : c ≠ ')')
    (level : Level front) : Balanced back := by
  have hfront : Level (front ++ [c]) :=
    (level_append_left_iff level).2 ((level_cons_iff opening closing).2 level_nil)
  rw [List.append_cons] at h
  exact h.of_append hfront

/-- A text that closes a parenthesis too many at some point is not balanced. -/
theorem not_balanced_of_closing {front back : List Char} (h : Level front) :
    ¬ Balanced (front ++ ')' :: back) := by
  intro balanced
  have opened := balanced.opened (front ++ [')']) back (by simp)
  have : ¬ (front ++ [')']).count ')' ≤ (front ++ [')']).count '(' := by
    rw [Level] at h
    simp only [List.count_append, List.count_singleton_self]
    simp
    omega
  exact this opened

end Reckoner.Text
