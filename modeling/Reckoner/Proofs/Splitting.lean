import Reckoner.Proofs.Bytewise
import Reckoner.Proofs.Dividing

/-! # Splitting and joining arguments

Splitting a text at its commas and joining texts with commas undo each other.  A text is split at
the commas that stand outside groups, counted from the left, and nowhere else (`length_pieces`).
The lists that a text can be split into are the `Separated` ones: each of their texts keeps its own
commas inside groups, and all but the last close what they open.  A list that is not separated is
never found again in its joined text (`splitArguments_joinCommas_iff`).
-/

namespace Reckoner.Expression

open Text (Level excess excess_append excess_nil extendFirst joinCommas)

variable {depth : Int} {text : List Char} {texts : List (List Char)}

/-! ## Commas outside groups -/

/-- How many commas stand at depth zero in a text that is read from a depth on. -/
def outerCommas (depth : Int) (text : List Char) : Nat :=
  (List.range text.length).countP fun i => text[i]? = some ',' ∧ depth + excess (text.take i) = 0

theorem outerCommas_cons (depth : Int) (c : Char) (rest : List Char) :
    outerCommas depth (c :: rest) =
      outerCommas (depthAfter depth c) rest + if c = ',' ∧ depth = 0 then 1 else 0 := by
  have shifted (i : Nat) :
      depth + excess (c :: rest.take i) = depthAfter depth c + excess (rest.take i) := by
    rw [← List.singleton_append, excess_append, ← Int.add_assoc, ← depthAfter_eq]
  rw [outerCommas, List.length_cons, List.range_succ_eq_map, List.countP_cons, List.countP_map]
  simp [outerCommas, Function.comp_def, shifted, excess_nil]

theorem length_extendFirst (c : Char) (nonempty : texts ≠ []) :
    (extendFirst c texts).length = texts.length := by
  cases texts with
  | nil => exact absurd rfl nonempty
  | cons first more => rfl

/-- A text is split at each comma outside groups. -/
theorem length_pieces (depth : Int) (text : List Char) :
    (pieces depth text).length = outerCommas depth text + 1 := by
  fun_induction pieces depth text with
  | case1 => rfl
  | case2 depth c rest comma ih =>
    have same : depthAfter depth c = depth := by simp [depthAfter, comma.1]
    rw [List.length_cons, ih, outerCommas_cons, if_pos comma, same]
  | case3 depth c rest inside ih =>
    rw [length_extendFirst c (pieces_ne_nil _ _), ih, outerCommas_cons, if_neg inside]

theorem outerCommas_eq_zero_iff : outerCommas depth text = 0 ↔ KeepsCommas depth text := by
  rw [outerCommas, List.countP_eq_zero]
  constructor
  · rintro none front back rfl outside
    refine none front.length (by simp) ?_
    simp [outside]
  · intro keeps i _ counted
    obtain ⟨comma, outside⟩ := of_decide_eq_true counted
    obtain ⟨inside, here⟩ := List.getElem?_eq_some_iff.1 comma
    refine keeps (text.take i) (text.drop (i + 1)) ?_ outside
    rw [← here, List.getElem_cons_drop, List.take_append_drop]

/-! ## Separated texts -/

/-- The texts between the commas outside groups of a text that is read from a depth on. -/
inductive Separated : Int → List (List Char) → Prop where
  | last {depth : Int} {text : List Char} (keeps : KeepsCommas depth text) : Separated depth [text]
  | more {depth : Int} {first : List Char} {rest : List (List Char)}
      (closes : depth + excess first = 0) (keeps : KeepsCommas depth first)
      (separated : Separated 0 rest) : Separated depth (first :: rest)

theorem Separated.ne_nil (separated : Separated depth texts) : texts ≠ [] := by
  cases separated <;> simp

theorem keepsCommas_cons {c : Char} (inside : ¬ (c = ',' ∧ depth = 0))
    (keeps : KeepsCommas (depthAfter depth c) text) : KeepsCommas depth (c :: text) := by
  rw [← List.singleton_append]
  refine keepsCommas_append ?_ (by rwa [← depthAfter_eq])
  rintro front back single outside
  obtain ⟨rfl, comma⟩ : front = [] ∧ [c] = ',' :: back := by
    cases front with
    | nil => exact ⟨rfl, single⟩
    | cons d front => simp at single
  rw [excess_nil, Int.add_zero] at outside
  exact inside ⟨(List.cons.inj comma).1, outside⟩

/-- A text is split into separated texts. -/
theorem separated_pieces (depth : Int) (text : List Char) :
    Separated depth (pieces depth text) := by
  fun_induction pieces depth text with
  | case1 => exact .last (keepsCommas_of_not_mem List.not_mem_nil)
  | case2 depth c rest comma ih =>
    obtain ⟨rfl, rfl⟩ := comma
    exact .more rfl (keepsCommas_of_not_mem List.not_mem_nil) ih
  | case3 depth c rest inside ih =>
    -- The character belongs to the first of the texts, whether or not it is the last one too.
    generalize pieces (depthAfter depth c) rest = texts at ih
    cases ih with
    | last keeps => exact .last (keepsCommas_cons inside keeps)
    | @more _ first _ closes keeps separated =>
      refine .more ?_ (keepsCommas_cons inside keeps) separated
      rwa [← List.singleton_append, excess_append, ← Int.add_assoc, ← depthAfter_eq]

/-- Separated texts are found again. -/
theorem Separated.pieces_joinCommas (separated : Separated depth texts) :
    pieces depth (joinCommas texts) = texts := by
  induction separated with
  | last keeps => exact pieces_eq_singleton keeps
  | @more depth first rest closes keeps separated ih =>
    have behind : pieces (depth + excess first) (',' :: joinCommas rest) = [] :: rest := by
      rw [closes, pieces, if_pos ⟨rfl, rfl⟩, ih]
    have joined : joinCommas (first :: rest) = first ++ ',' :: joinCommas rest := by
      obtain ⟨second, others, rfl⟩ := List.exists_cons_of_ne_nil separated.ne_nil
      rfl
    rw [joined, pieces_append keeps behind, List.append_nil]

theorem pieces_eq_iff :
    pieces depth text = texts ↔ joinCommas texts = text ∧ Separated depth texts := by
  constructor
  · rintro rfl
    exact ⟨joinCommas_pieces depth text, separated_pieces depth text⟩
  · rintro ⟨rfl, separated⟩
    exact separated.pieces_joinCommas

theorem separated_of_level (nonempty : texts ≠ [])
    (level : ∀ text ∈ texts, Level text ∧ KeepsCommas 0 text) : Separated 0 texts := by
  rw [← pieces_joinCommas nonempty level]
  exact separated_pieces 0 (joinCommas texts)

/-! ## Argument texts -/

theorem joinCommas_eq_nil_iff : joinCommas texts = [] ↔ texts = [] ∨ texts = [[]] := by
  match texts with
  | [] => simp [joinCommas]
  | [text] => simp [joinCommas]
  | first :: second :: more => simp [joinCommas]

/-- No text is split into one empty argument. -/
theorem splitArguments_joinCommas_iff :
    splitArguments (joinCommas texts) = texts ↔
      texts = [] ∨ texts ≠ [[]] ∧ Separated 0 texts := by
  by_cases empty : joinCommas texts = []
  · rw [splitArguments, if_pos empty]
    obtain rfl | rfl := joinCommas_eq_nil_iff.1 empty
    · simp
    · simp
  · obtain ⟨nonempty, several⟩ := not_or.1 (mt joinCommas_eq_nil_iff.2 empty)
    rw [splitArguments, if_neg empty, pieces_eq_iff]
    simp [nonempty, several]

/-- Joining what a text is split into gives the text back, and splitting what level texts with no
comma of their own are joined to gives the texts back, the empty ones included.  A scan over bytes
that cuts the text at offsets splits it in the same way, as long as it can count the depth. -/
theorem splitArguments_inverse :
    (∀ text : List Char, text ≠ [] → joinCommas (splitArguments text) = text ∧
      (splitArguments text).length = outerCommas 0 text + 1) ∧
    (∀ texts : List (List Char), texts ≠ [] → texts ≠ [[]] →
      (∀ text ∈ texts, text.count '(' = text.count ')' ∧ outerCommas 0 text = 0) →
        splitArguments (joinCommas texts) = texts) ∧
    ∀ text : List Char, Text.byteSize text < Text.depthBound →
      ∃ found, Bytewise.splitArguments text = .returned found ∧
        found.map Subtype.val = splitArguments text := by
  refine ⟨?_, ?_, ?_⟩
  · intro text nonempty
    refine ⟨joinCommas_splitArguments text, ?_⟩
    rw [splitArguments, if_neg nonempty, length_pieces]
  · intro texts nonempty several level
    have separated : Separated 0 texts := by
      refine separated_of_level nonempty fun text member => ?_
      exact ⟨(level text member).1, outerCommas_eq_zero_iff.1 (level text member).2⟩
    exact splitArguments_joinCommas_iff.2 (.inr ⟨several, separated⟩)
  · intro text counted
    exact Bytewise.splitArguments_eq counted

/-- A parenthesis that closes too early hides the commas behind it until another one is opened;
level texts may be empty, or close before they open. -/
theorem splitArguments_inverse_unbalanced :
    let text := "é,(1,2)),(,3".toList
    let texts := ["max(1,2)".toList, [], "),(".toList]
    (text ≠ [] ∧ joinCommas (splitArguments text) = text ∧ (splitArguments text).length = 3) ∧
      (texts ≠ [] ∧ texts ≠ [[]] ∧
        (∀ text ∈ texts, text.count '(' = text.count ')' ∧ outerCommas 0 text = 0) ∧
        splitArguments (joinCommas texts) = texts) ∧
      Text.byteSize text < Text.depthBound ∧
      ∃ found, Bytewise.splitArguments text = .returned found ∧
        found.map Subtype.val = splitArguments text := by
  intro text texts
  obtain ⟨joined, split, counted⟩ := splitArguments_inverse
  have nonempty : text ≠ [] := by decide
  have level : ∀ text ∈ texts, text.count '(' = text.count ')' ∧ outerCommas 0 text = 0 := by
    decide
  have small : Text.byteSize text < Text.depthBound := by decide
  refine ⟨⟨nonempty, (joined text nonempty).1, (joined text nonempty).2⟩,
    ⟨by decide, by decide, level, split texts (by decide) (by decide) level⟩, small,
    counted text small⟩

end Reckoner.Expression
