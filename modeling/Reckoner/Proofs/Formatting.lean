import Mathlib.Data.List.DropRight
import Reckoner.Proofs.NumberText
import Reckoner.Proofs.Ordering

/-! # Formatting by branches

The text of a number can also be made by branches over a plain writer of floats: the words are put
in place of the writer's own, whole numbers are told by comparing with the truncated float, and
zeros at the end are stripped where there is a point.  The branches give the text that
`Number.chars` gives in one go (`formatted_eq`), so of all that they do only the words and the sign
of zero matter.
-/

namespace Reckoner

namespace Binary64

variable {x y : Float}

/-! ## Comparing floats -/

theorem zero_lt_iff {negative : Bool} (infinite : view x = .infinite negative) :
    0 < x ↔ negative = false := by
  rw [← toFloat_view x, infinite]
  cases negative <;> decide +kernel

theorem beq_zero_iff {negative : Bool} {bits : Nat} (finite : view x = .finite negative bits) :
    (x == 0) = true ↔ bits = 0 := by
  have zero : view 0 = .finite false 0 := by decide +kernel
  rw [beq_iff_rank, finite, zero]
  cases negative with
  | false =>
    simp [View.rank?]
    omega
  | true => simp [View.rank?]

/-! ## Whole numbers -/

/-- A float without its fraction. -/
def truncated (x : Float) : Float :=
  match view x with
  | .finite negative bits => (View.finite negative (nearest (wholePart bits) 1)).toFloat
  | _ => x

theorem nearest_wholePart_of_dvd {bits : Nat} (finite : bits < infinityBits)
    (whole : unitsPerOne ∣ units bits) : nearest (wholePart bits) 1 = bits := by
  apply nearest_of_exact Nat.one_pos finite
  rw [wholePart, Nat.div_mul_cancel whole, Nat.mul_one]

theorem nearest_wholePart_lt {bits : Nat} (finite : bits < infinityBits) :
    nearest (wholePart bits) 1 < infinityBits := by
  obtain ⟨place, significand, placed, within, rfl⟩ := exists_placed bits
  obtain large | small := Nat.le_total unitPlaces place
  · have whole : unitsPerOne ∣ units (place * hiddenBit + significand) := by
      rw [units_place placed, unitsPerOne_eq]
      exact Dvd.dvd.mul_left (Nat.pow_dvd_pow 2 large) _
    rwa [nearest_wholePart_of_dvd finite whole]
  · -- Below the place of one, the significand is all that the integer part can hold.
    apply nearest_whole_lt
    rw [wholePart, units_place placed, unitsPerOne_eq, Nat.div_lt_iff_lt_mul (Nat.two_pow_pos _)]
    exact Nat.mul_lt_mul_of_lt_of_le within (Nat.pow_le_pow_right Nat.two_pos small)
      (Nat.two_pow_pos _)

/-- Truncating changes no whole number, and no float that it leaves alone has a fraction. -/
theorem beq_truncated_iff {negative : Bool} {bits : Nat} (finite : view x = .finite negative bits) :
    (x == truncated x) = true ↔ unitsPerOne ∣ units bits := by
  have bounded := finite_of_view finite
  have whole : nearest (wholePart bits) 1 = bits ↔ unitsPerOne ∣ units bits := by
    constructor
    · intro same
      rw [← same] at bounded ⊢
      exact dvd_units_nearest bounded
    · exact nearest_wholePart_of_dvd bounded
  rw [← whole, beq_iff_rank, truncated, finite, view_toFloat (nearest_wholePart_lt bounded)]
  cases negative <;> simp [View.rank?]

end Binary64

namespace Number

open Binary64 (beq_truncated_iff beq_zero_iff isInf_iff_view isNaN_iff_view truncated unitsPerOne
  units view zero_lt_iff)
open Literal (AllDigits)

/-! ## The branches -/

/-- The text of a writer that has words of its own and keeps the sign of a zero. -/
def spelled (x : Float) : List Char :=
  match view x with
  | .nan => "NaN".toList
  | .infinite negative => signText negative ++ "inf".toList
  | .finite negative magnitude => signText negative ++ magnitudeText magnitude

/-- The text without zeros and then points at its end, if it has a point. -/
def stripTrailingZeros (text : List Char) : List Char :=
  if '.' ∈ text then (text.rdropWhile (· = '0')).rdropWhile (· = '.') else text

/-- The text of a number, the kinds of numbers one after another. -/
def formatted (x : Float) : List Char :=
  if x.isNaN then Literal.nanWord
  else if x.isInf then
    if 0 < x then Literal.infinityWord else '-' :: Literal.infinityWord
  else if x == truncated x then
    if x == 0 then ['0'] else spelled x
  else stripTrailingZeros (spelled x)

/-- Plain text ends in no zero behind its point. -/
theorem stripTrailingZeros_plainText {isWhole : Prop} {text : List Char}
    (plain : PlainText isWhole text) (negative : Bool) :
    stripTrailingZeros (signText negative ++ text) = signText negative ++ text := by
  cases plain with
  | whole holds nonempty digit =>
    have point : '.' ∉ signText negative ++ text := by
      intro member
      obtain sign | member := List.mem_append.1 member
      · cases negative <;> simp [signText] at sign
      · exact absurd (digit _ member) (by decide)
    rw [stripTrailingZeros, if_neg point]
  | @places digits places last fails nonempty digit place stays =>
    have isDigit := place last (by simp)
    have point : last ≠ '.' := by
      rintro rfl
      exact absurd isDigit (by decide)
    have ends : signText negative ++ (digits ++ '.' :: (places ++ [last])) =
        (signText negative ++ digits ++ '.' :: places) ++ [last] := by simp
    rw [stripTrailingZeros, if_pos (by simp), ends,
      List.rdropWhile_concat_neg _ _ _ (by simpa using stays),
      List.rdropWhile_concat_neg _ _ _ (by simpa using point)]

theorem formatted_eq (x : Float) : formatted x = chars x := by
  rw [formatted, chars]
  cases viewX : view x with
  | nan => rw [if_pos (isNaN_iff_view.2 viewX)]
  | infinite negative =>
    have number : ¬ x.isNaN = true := by
      rw [isNaN_iff_view, viewX]
      simp
    rw [if_neg number, if_pos (isInf_iff_view.2 ⟨negative, viewX⟩)]
    simp only [zero_lt_iff viewX]
    cases negative <;> rfl
  | finite negative magnitude =>
    have number : ¬ x.isNaN = true := by
      rw [isNaN_iff_view, viewX]
      simp
    have bounded : ¬ x.isInf = true := by simp [isInf_iff_view, viewX]
    have plain := plainText_magnitudeText (Binary64.finite_of_view viewX)
    rw [if_neg number, if_neg bounded]
    simp only [beq_truncated_iff viewX, beq_zero_iff viewX, spelled, viewX]
    rw [stripTrailingZeros_plainText plain]
    by_cases zero : magnitude = 0
    · subst zero
      have whole : unitsPerOne ∣ units 0 := Nat.dvd_zero _
      rw [if_pos whole, if_pos rfl]
      cases negative <;> rfl
    · have signed : (negative && magnitude != 0) = negative := by simp [zero]
      rw [if_neg zero, ite_self, signed]

end Number
end Reckoner
