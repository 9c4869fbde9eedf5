/-! # Fields of a text

Dividing a text at a character and joining texts with commas.

* `splitOn` — the fields between the occurrences of a character, never none.
* `joinCommas` — texts with a comma between each two.
-/

namespace Reckoner.Text

/-- Puts a character in front of the first field. -/
def extendFirst (c : Char) : List (List Char) → List (List Char)
  | [] => [[c]]
  | field :: fields => (c :: field) :: fields

/-- The fields of a text between the occurrences of a character. -/
def splitOn (separator : Char) (text : List Char) : List (List Char) :=
  text.foldr (fun c fields => if c = separator then [] :: fields else extendFirst c fields) [[]]

/-- Texts joined by commas. -/
def joinCommas : List (List Char) → List Char
  | [] => []
  | [piece] => piece
  | piece :: pieces => piece ++ ',' :: joinCommas pieces

theorem joinCommas_extendFirst (c : Char) {texts : List (List Char)} (h : texts ≠ []) :
    joinCommas (extendFirst c texts) = c :: joinCommas texts := by
  match texts with
  | [] => exact absurd rfl h
  | [piece] => rfl
  | piece :: next :: more => rfl

theorem joinCommas_nil_cons {texts : List (List Char)} (h : texts ≠ []) :
    joinCommas ([] :: texts) = ',' :: joinCommas texts := by
  match texts with
  | [] => exact absurd rfl h
  | piece :: more => rfl

theorem length_le_of_mem_joinCommas {texts : List (List Char)} {piece : List Char}
    (h : piece ∈ texts) : piece.length ≤ (joinCommas texts).length := by
  induction texts with
  | nil => simp at h
  | cons first more ih =>
    match more, ih, h with
    | [], _, h =>
      have : piece = first := by simpa using h
      simp [joinCommas, this]
    | next :: others, ih, h =>
      rcases List.mem_cons.1 h with rfl | h
      · simp only [joinCommas, List.length_append]; omega
      · have := ih h
        simp only [joinCommas, List.length_append, List.length_cons] at this ⊢
        omega

theorem extendFirst_ne_nil (c : Char) (texts : List (List Char)) : extendFirst c texts ≠ [] := by
  cases texts <;> simp [extendFirst]

theorem splitOn_ne_nil (separator : Char) (text : List Char) : splitOn separator text ≠ [] := by
  cases text with
  | nil => simp [splitOn]
  | cons c rest =>
    simp only [splitOn, List.foldr_cons]
    split
    · simp
    · exact extendFirst_ne_nil _ _

end Reckoner.Text
