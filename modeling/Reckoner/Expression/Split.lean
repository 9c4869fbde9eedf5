import Reckoner.Expression

/-! # Where a text divides

A text divides at an operator or a comma that stands outside all groups. Operators are looked for
from the right, so that the last one of a chain divides it and chains associate to the left;
commas are looked for from the left. A group counts as open as the scan meets it: an unmatched
parenthesis hides what lies beyond it.

* `splitLast?` — the last operator outside groups, see `splitLast?_eq_some`.
* `pieces` — the texts between the commas outside groups, see `joinCommas_pieces`.
-/

namespace Reckoner.Expression

open Text (extendFirst extendFirst_ne_nil joinCommas joinCommas_extendFirst joinCommas_nil_cons
  length_le_of_mem_joinCommas)

/-! ## Operators -/

/-- The depth after a parenthesis has been passed from the right. -/
def depthBefore (depth : Int) (c : Char) : Int :=
  if c = ')' then depth + 1 else if c = '(' then depth - 1 else depth

/-- Looks from the right for an operator at depth zero with something before it. `left` is the text
before the scan, reversed, and `right` the text behind it. `allowed` may look at the character just
before the operator. -/
def scanBack (operator? : Char → Option Operator) (allowed : Char → Bool) (depth : Int)
    (right : List Char) : (left : List Char) → Option (List Char × Operator × List Char)
  | [] => none
  -- An operator at the very start is a sign and divides nothing.
  | [_] => none
  | c :: before :: left =>
    match operator? c with
    | some operator =>
      if depth = 0 ∧ allowed before then some ((before :: left).reverse, operator, right)
      else scanBack operator? allowed (depthBefore depth c) (c :: right) (before :: left)
    | none => scanBack operator? allowed (depthBefore depth c) (c :: right) (before :: left)

/-- Splits at the last operator outside groups, unless it stands at the very start. -/
def splitLast? (operator? : Char → Option Operator) (allowed : Char → Bool) (text : List Char) :
    Option (List Char × Operator × List Char) :=
  scanBack operator? allowed 0 [] text.reverse

/-- A sign behind the mark of an exponent belongs to a literal. -/
def notExponentMark (c : Char) : Bool :=
  !(c = 'e' || c = 'E')

/-- The last sum or difference. -/
def splitSum? : List Char → Option (List Char × Operator × List Char) :=
  splitLast? Operator.additive? notExponentMark

/-- The last product or quotient. -/
def splitProduct? : List Char → Option (List Char × Operator × List Char) :=
  splitLast? Operator.multiplicative? fun _ => true

theorem scanBack_eq_some {operator? : Char → Option Operator} {allowed : Char → Bool}
    (hchar : ∀ {c o}, operator? c = some o → o.char = c) {depth : Int}
    {right left l r : List Char} {o : Operator}
    (h : scanBack operator? allowed depth right left = some (l, o, r)) :
    l ++ o.char :: r = left.reverse ++ right ∧ l ≠ [] := by
  fun_induction scanBack operator? allowed depth right left with
  | case1 => simp at h
  | case2 => simp at h
  | case3 depth right c before left o' ho hcond =>
    simp only [Option.some.injEq, Prod.mk.injEq] at h
    obtain ⟨rfl, rfl, rfl⟩ := h
    simp [hchar ho]
  | case4 depth right c before left o' ho hcond ih =>
    obtain ⟨h1, h2⟩ := ih h
    exact ⟨by simp [h1], h2⟩
  | case5 depth right c before left ho ih =>
    obtain ⟨h1, h2⟩ := ih h
    exact ⟨by simp [h1], h2⟩

/-- Nothing is lost in a split, and something stands before the operator. -/
theorem splitLast?_eq_some {operator? : Char → Option Operator} {allowed : Char → Bool}
    (hchar : ∀ {c o}, operator? c = some o → o.char = c) {text l r : List Char} {o : Operator}
    (h : splitLast? operator? allowed text = some (l, o, r)) :
    l ++ o.char :: r = text ∧ l ≠ [] := by
  simpa using scanBack_eq_some hchar h

theorem splitSum?_eq_some {text l r : List Char} {o : Operator}
    (h : splitSum? text = some (l, o, r)) : l ++ o.char :: r = text ∧ l ≠ [] :=
  splitLast?_eq_some Operator.char_of_additive? h

theorem splitProduct?_eq_some {text l r : List Char} {o : Operator}
    (h : splitProduct? text = some (l, o, r)) : l ++ o.char :: r = text ∧ l ≠ [] :=
  splitLast?_eq_some Operator.char_of_multiplicative? h

/-! ## Arguments -/

/-- The depth after a parenthesis has been passed from the left. -/
def depthAfter (depth : Int) (c : Char) : Int :=
  if c = '(' then depth + 1 else if c = ')' then depth - 1 else depth

/-- The texts between the commas at depth zero, never none. -/
def pieces (depth : Int) : List Char → List (List Char)
  | [] => [[]]
  | c :: rest =>
    if c = ',' ∧ depth = 0 then [] :: pieces depth rest
    else extendFirst c (pieces (depthAfter depth c) rest)

/-- The argument texts of a call: none if nothing stands between its parentheses. -/
def splitArguments (inner : List Char) : List (List Char) :=
  if inner = [] then [] else pieces 0 inner

theorem pieces_ne_nil (depth : Int) (text : List Char) : pieces depth text ≠ [] := by
  fun_induction pieces depth text with
  | case1 => simp
  | case2 => simp
  | case3 depth c rest _ ih => exact extendFirst_ne_nil _ _

/-- Joining the pieces gives the text back, balanced or not. -/
theorem joinCommas_pieces (depth : Int) (text : List Char) :
    joinCommas (pieces depth text) = text := by
  fun_induction pieces depth text with
  | case1 => rfl
  | case2 depth c rest h ih => rw [joinCommas_nil_cons (pieces_ne_nil _ _), ih, h.1]
  | case3 depth c rest h ih => rw [joinCommas_extendFirst c (pieces_ne_nil _ _), ih]

theorem joinCommas_splitArguments (inner : List Char) :
    joinCommas (splitArguments inner) = inner := by
  unfold splitArguments
  split
  · simp_all [joinCommas]
  · exact joinCommas_pieces 0 inner

theorem length_le_of_mem_splitArguments {inner piece : List Char}
    (h : piece ∈ splitArguments inner) : piece.length ≤ inner.length := by
  have := length_le_of_mem_joinCommas h
  rwa [joinCommas_splitArguments] at this

/-! ## Calls and groups -/

/-- A text that ends in a closing parenthesis, divided at its first opening one: what stands before
it, and what stands between the two. -/
def call? (text : List Char) : Option (List Char × List Char) :=
  match text.dropWhile (· ≠ '(') with
  | [] => none
  | _ :: rest =>
    if rest.getLast? = some ')' then some (text.takeWhile (· ≠ '('), rest.dropLast) else none

theorem call?_eq_some {text name inner : List Char} (h : call? text = some (name, inner)) :
    name ++ '(' :: (inner ++ [')']) = text := by
  unfold call? at h
  split at h
  · simp at h
  · next c rest hdrop =>
    split at h
    · next hlast =>
      simp only [Option.some.injEq, Prod.mk.injEq] at h
      obtain ⟨rfl, rfl⟩ := h
      have hne : rest ≠ [] := by rintro rfl; simp at hlast
      have hrest : rest.dropLast ++ [')'] = rest := by
        have hl : rest.getLast hne = ')' := by
          rw [List.getLast?_eq_some_getLast hne] at hlast
          exact Option.some.inj hlast
        rw [← hl]; exact List.dropLast_concat_getLast hne
      have hc : c = '(' := by
        have := List.head?_dropWhile_not (p := fun x : Char => decide (x ≠ '(')) (l := text)
        rw [hdrop] at this
        simpa using this
      rw [hrest]
      subst hc
      rw [← hdrop]
      exact List.takeWhile_append_dropWhile
    · simp at h

end Reckoner.Expression
