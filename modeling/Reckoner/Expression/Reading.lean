import Reckoner.Expression.Split

/-! # Reading expressions

`Expression.ofChars` divides a text from the weakest binding to the strongest: sums, products,
signs, and then calls, groups and literals. Every part is shorter than the whole or handed on to
the next stage. Main statement: `chars_ofChars`, no character is lost.
-/

namespace Reckoner.Expression

theorem lengths_of_splitSum? {text l r : List Char} {o : Operator}
    (h : splitSum? text = some (l, o, r)) :
    l.length < text.length ∧ r.length < text.length := by
  have hlen := congrArg List.length (splitSum?_eq_some h).1
  simp at hlen
  omega

theorem lengths_of_splitProduct? {text l r : List Char} {o : Operator}
    (h : splitProduct? text = some (l, o, r)) :
    l.length < text.length ∧ r.length < text.length := by
  have hlen := congrArg List.length (splitProduct?_eq_some h).1
  simp at hlen
  omega

theorem length_of_call? {text name inner : List Char} (h : call? text = some (name, inner)) :
    inner.length < text.length := by
  have hlen := congrArg List.length (call?_eq_some h)
  simp at hlen
  omega

mutual

/-- Reads a sum or difference, or else a product. -/
def ofChars (text : List Char) : Expression :=
  match h : splitSum? text with
  | some (left, operator, right) =>
    have := lengths_of_splitSum? h
    binary operator (ofChars left) (ofProduct right)
  | none => ofProduct text
termination_by (text.length, 3)

/-- Reads a product or quotient, or else a signed operand. -/
def ofProduct (text : List Char) : Expression :=
  match h : splitProduct? text with
  | some (left, operator, right) =>
    have := lengths_of_splitProduct? h
    binary operator (ofProduct left) (ofSigned right)
  | none => ofSigned text
termination_by (text.length, 2)

/-- Reads any number of signs, and then an operand. -/
def ofSigned (text : List Char) : Expression :=
  match text with
  | '+' :: rest => signed false (ofSigned rest)
  | '-' :: rest => signed true (ofSigned rest)
  | text => ofOperand text
termination_by (text.length, 1)

/-- Reads a call, a group or a literal. -/
def ofOperand (text : List Char) : Expression :=
  match h : call? text with
  -- Without a name in front, the parentheses only group.
  | some ([], inner) =>
    have := length_of_call? h
    group (ofChars inner)
  | some (name, inner) =>
    have := length_of_call? h
    call name ((splitArguments inner).attach.map fun piece =>
      have := length_le_of_mem_splitArguments piece.property
      ofChars piece.val)
  | none => literal text
termination_by (text.length, 0)

end

/-! ## No character is lost -/

mutual

theorem chars_ofChars (text : List Char) : (ofChars text).chars = text := by
  rw [ofChars]
  split
  · next left operator right h =>
    have := lengths_of_splitSum? h
    rw [chars, chars_ofChars left, chars_ofProduct right]
    exact (splitSum?_eq_some h).1
  · exact chars_ofProduct text
termination_by (text.length, 3)

theorem chars_ofProduct (text : List Char) : (ofProduct text).chars = text := by
  rw [ofProduct]
  split
  · next left operator right h =>
    have := lengths_of_splitProduct? h
    rw [chars, chars_ofProduct left, chars_ofSigned right]
    exact (splitProduct?_eq_some h).1
  · exact chars_ofSigned text
termination_by (text.length, 2)

theorem chars_ofSigned (text : List Char) : (ofSigned text).chars = text := by
  rw [ofSigned.eq_def]
  split
  · next rest => rw [chars, chars_ofSigned rest]; rfl
  · next rest => rw [chars, chars_ofSigned rest]; rfl
  · exact chars_ofOperand _
termination_by (text.length, 1)

theorem chars_ofOperand (text : List Char) : (ofOperand text).chars = text := by
  rw [ofOperand.eq_def]
  split
  · next inner h =>
    have := length_of_call? h
    rw [chars, chars_ofChars inner]
    exact call?_eq_some h
  · next name inner _ h =>
    have := length_of_call? h
    have hargs : ∀ piece ∈ splitArguments inner, (ofChars piece).chars = piece := by
      intro piece hpiece
      have := length_le_of_mem_splitArguments hpiece
      exact chars_ofChars piece
    have hmap : charsOfAll ((splitArguments inner).attach.map fun piece => ofChars piece.val)
        = splitArguments inner := by
      rw [charsOfAll_eq_map, List.map_map]
      conv => rhs; rw [← List.attach_map_subtype_val (splitArguments inner)]
      exact List.map_congr_left fun piece _ => hargs piece.val piece.property
    rw [chars, hmap, joinCommas_splitArguments]
    exact call?_eq_some h
  · rfl
termination_by (text.length, 0)

end

end Reckoner.Expression
