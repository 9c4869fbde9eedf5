/-! # Blank characters

The characters with the Unicode property White_Space carry no meaning in an expression, in a list
of names or at the ends of a request line.

* `isBlank` — the property, as a table of ranges.
* `strip` — drops blanks everywhere.
* `trim` — drops them at both ends only.
-/

namespace Reckoner.Text

/-- First and last code point of each range of White_Space, 25 characters in all. -/
def blankRanges : List (Nat × Nat) :=
  [(0x09, 0x0D), (0x20, 0x20), (0x85, 0x85), (0xA0, 0xA0), (0x1680, 0x1680), (0x2000, 0x200A),
   (0x2028, 0x2029), (0x202F, 0x202F), (0x205F, 0x205F), (0x3000, 0x3000)]

/-- The table answers for one character. -/
def isBlank (c : Char) : Bool :=
  blankRanges.any fun range => range.1 ≤ c.toNat && c.toNat ≤ range.2

/-- The text without its blanks. -/
def strip (text : List Char) : List Char :=
  text.filter fun c => !isBlank c

/-- The text from its first to its last character that is no blank. -/
def trim (text : List Char) : List Char :=
  ((text.dropWhile isBlank).reverse.dropWhile isBlank).reverse

/-- Blank text is what `trim` empties; `strip` empties the same texts. -/
def allBlank (text : List Char) : Bool :=
  text.all isBlank

theorem strip_append (s t : List Char) : strip (s ++ t) = strip s ++ strip t :=
  List.filter_append s t

theorem strip_eq_nil_iff {s : List Char} : strip s = [] ↔ allBlank s = true := by
  simp [strip, allBlank, List.filter_eq_nil_iff]

end Reckoner.Text
