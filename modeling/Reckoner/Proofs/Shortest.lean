import Mathlib.Data.Nat.Log
import Reckoner.Proofs.Nearest
import Reckoner.Proofs.NumberText

/-! # Seventeen digits suffice

Floats are so far apart that the nearest decimal of seventeen digits cannot be mistaken for another
float (`rounds_of_near`).  The search for the shortest decimal therefore ends before the exact
expansion is needed (`neighbour?_ne_none`), and so the text of a number is never long
(`length_chars_le`).
-/

namespace Reckoner

/-! ## The gaps between floats -/

namespace Binary64

/-- A place can be chosen in which the pattern is not the first one. -/
theorem exists_inside (bits : Nat) : ∃ place significand, Placed place significand ∧
    (place = 0 ∨ hiddenBit < significand) ∧ bits = place * hiddenBit + significand := by
  obtain ⟨place, significand, placed, -, rfl⟩ := exists_placed bits
  by_cases inside : place = 0 ∨ hiddenBit < significand
  · exact ⟨place, significand, placed, inside, rfl⟩
  · -- The first pattern of a place is also the last one of the place before.
    obtain ⟨later, small⟩ := not_or.1 inside
    obtain ⟨before, rfl⟩ := Nat.exists_eq_succ_of_ne_zero later
    have first : significand = hiddenBit :=
      Nat.le_antisymm (Nat.le_of_not_lt small) (placed.lower.resolve_left later)
    refine ⟨before, 2 * hiddenBit, ⟨le_rfl, .inr (by decide)⟩, .inr (by decide), ?_⟩
    rw [first, Nat.succ_mul]
    omega

/-- The other floats are away from one by a share of its size. -/
theorem units_le_mul_gap {bits other : Nat} (different : other ≠ bits) :
    (units bits : ℚ) ≤ 2 ^ 53 * |(units bits : ℚ) - units other| := by
  obtain ⟨place, significand, placed, inside, rfl⟩ := exists_inside bits
  have gap : (2 ^ place : ℚ) ≤
      |(units (place * hiddenBit + significand) : ℚ) - units other| := by
    obtain below | above := Nat.lt_or_gt_of_ne different
    · have step : (units other : ℚ) + 2 ^ place ≤ units (place * hiddenBit + significand) := by
        exact_mod_cast units_add_le_of_lt placed inside below
      refine le_trans ?_ (le_abs_self _)
      linarith
    · have step : (units (place * hiddenBit + significand) : ℚ) + 2 ^ place ≤ units other := by
        exact_mod_cast units_add_le placed above
      refine le_trans ?_ (neg_le_abs _)
      linarith
  have size : (units (place * hiddenBit + significand) : ℚ) ≤ 2 ^ 53 * 2 ^ place := by
    have upper : significand ≤ 2 ^ 53 := placed.upper
    rw [units_place placed]
    exact_mod_cast Nat.mul_le_mul_right (2 ^ place) upper
  linarith

theorem magnitude_le_mul_gap {bits other : Nat} (different : other ≠ bits) :
    magnitude bits ≤ 2 ^ 53 * |magnitude bits - magnitude other| := by
  have hone : (0 : ℚ) < unitsPerOne := by exact_mod_cast unitsPerOne_pos
  rw [magnitude, magnitude, ← sub_div, abs_div, abs_of_pos hone, ← mul_div_assoc]
  exact div_le_div_of_nonneg_right (units_le_mul_gap different) hone.le

theorem magnitude_pos {bits : Nat} (nonzero : bits ≠ 0) : 0 < magnitude bits := by
  have zero : magnitude 0 = 0 := by simp [magnitude, show units 0 = 0 from rfl]
  exact zero ▸ magnitude_strictMono (Nat.pos_of_ne_zero nonzero)

/-- What is closer to a float than half a unit of its sixteenth digit is rounded to it. -/
theorem rounds_of_near {value : ℚ} {bits : Nat} (ordered : bits ≤ infinityBits) (nonzero : bits ≠ 0)
    (near : |value - magnitude bits| * (2 * 10 ^ 16) ≤ magnitude bits) : Rounds value bits := by
  have strict : ∀ other, other ≠ bits → |value - magnitude bits| < |value - magnitude other| := by
    intro other different
    have gap := magnitude_le_mul_gap different
    have around := abs_sub_le (magnitude bits) value (magnitude other)
    rw [abs_sub_comm (magnitude bits) value] at around
    have positive := magnitude_pos nonzero
    -- Otherwise the gap would be at most twice the distance, which 2⁵³ < 10¹⁶ excludes.
    by_contra closer
    linarith
  refine ⟨ordered, ?_, ?_⟩
  · intro other _
    by_cases same : other = bits
    · rw [same]
    · exact (strict other same).le
  · intro other _ different equal
    exact absurd equal (strict other different).ne'

end Binary64

/-! ## The leading place -/

namespace Digits

theorem count_eq_log (n : Nat) : count n = Nat.log 10 n + 1 := by
  induction n using count.induct with
  | case1 n small => rw [count, if_pos small, Nat.log_of_lt small]
  | case2 n large ih =>
    rw [count, if_neg large, ih, Nat.log_of_one_lt_of_le (by decide) (Nat.le_of_not_lt large)]

theorem lt_pow_count (n : Nat) : n < 10 ^ count n := by
  rw [count_eq_log]
  exact Nat.lt_pow_succ_log_self (by decide) n

theorem pow_count_le {n : Nat} (pos : 0 < n) : 10 ^ count n ≤ 10 * n := by
  rw [count_eq_log, Nat.pow_succ, Nat.mul_comm]
  exact Nat.mul_le_mul_left 10 (Nat.pow_log_le_self 10 pos.ne')

theorem count_le {n k : Nat} (bound : n ≤ 10 ^ k) : count n ≤ k + 1 := by
  rw [count_eq_log]
  exact Nat.succ_le_succ ((Nat.log_mono_right bound).trans (Nat.log_pow (by decide) k).le)

end Digits

namespace Decimal

open Binary64 (infinityBits magnitude units unitsPerOne roundQuotient roundQuotient_bounds
  roundQuotient_near)

variable {bits : Nat} {d : Decimal}

theorem div_bounds (numerator : Nat) {denominator : Nat} (pos : 0 < denominator) :
    ((numerator / denominator : Nat) : ℚ) ≤ numerator / denominator ∧
      (numerator / denominator : ℚ) < (numerator / denominator : Nat) + 1 := by
  refine ⟨Nat.cast_div_le, ?_⟩
  rw [div_lt_iff₀ (by exact_mod_cast pos), mul_comm]
  exact_mod_cast Nat.lt_mul_div_succ numerator pos

theorem cast_tenTo (k : Nat) : (tenTo k : ℚ) = 10 ^ k := by
  rw [tenTo, Nat.pow_eq, Nat.cast_pow, Nat.cast_ofNat]

theorem cast_tenTo_pos (k : Nat) : (0 : ℚ) < tenTo k := by
  rw [cast_tenTo]
  positivity

/-- The leading place is the place of the first digit. -/
theorem leadingPlace_bounds (nonzero : bits ≠ 0) :
    (10 : ℚ) ^ leadingPlace (units bits) ≤ 10 * magnitude bits ∧
      magnitude bits < 10 ^ leadingPlace (units bits) := by
  have scaled : magnitude bits * tenTo 324 = (units bits * tenTo 324 : Nat) / unitsPerOne := by
    rw [magnitude, div_mul_eq_mul_div, Nat.cast_mul]
  have power : (10 : ℚ) ^ leadingPlace (units bits) =
      10 ^ Digits.count (units bits * tenTo 324 / unitsPerOne) / tenTo 324 := by
    rw [leadingPlace, zpow_sub₀ (by norm_num), zpow_natCast, cast_tenTo, ← zpow_natCast _ 324]
    rfl
  obtain ⟨whole, below⟩ := div_bounds (units bits * tenTo 324) Binary64.unitsPerOne_pos
  rw [← scaled] at whole below
  -- After the shift even a single unit has a digit in front of the point.
  have positive : 0 < units bits * tenTo 324 / unitsPerOne := by
    have shift : unitsPerOne ≤ tenTo 324 := by decide +kernel
    have one : 0 < units bits := Binary64.units_strictMono (Nat.pos_of_ne_zero nonzero)
    exact Nat.div_pos (shift.trans (Nat.le_mul_of_pos_left _ one)) Binary64.unitsPerOne_pos
  rw [power]
  constructor
  · have least : (10 ^ Digits.count (units bits * tenTo 324 / unitsPerOne) : ℚ) ≤
        10 * (units bits * tenTo 324 / unitsPerOne : Nat) := by
      exact_mod_cast Digits.pow_count_le positive
    rw [div_le_iff₀ (cast_tenTo_pos 324), mul_assoc]
    linarith
  · have most : ((units bits * tenTo 324 / unitsPerOne : Nat) : ℚ) + 1 ≤
        10 ^ Digits.count (units bits * tenTo 324 / unitsPerOne) := by
      exact_mod_cast Digits.lt_pow_count _
    rw [lt_div_iff₀ (cast_tenTo_pos 324)]
    linarith

theorem leadingPlace_range (finite : bits < infinityBits) (nonzero : bits ≠ 0) :
    -323 ≤ leadingPlace (units bits) ∧ leadingPlace (units bits) ≤ 309 := by
  have few := count_pos (units bits * tenTo 324 / unitsPerOne)
  refine ⟨by rw [leadingPlace]; omega, ?_⟩
  have largest : magnitude infinityBits < 10 ^ (309 : ℤ) := by
    have hone : (0 : ℚ) < unitsPerOne := by exact_mod_cast Binary64.unitsPerOne_pos
    have bound : units infinityBits < tenTo 309 * unitsPerOne := by decide +kernel
    rw [magnitude, div_lt_iff₀ hone, show (309 : ℤ) = (309 : ℕ) from rfl, zpow_natCast, ← cast_tenTo]
    exact_mod_cast bound
  have below : (10 : ℚ) ^ leadingPlace (units bits) < 10 ^ (309 + 1 : ℤ) := by
    have reached := (leadingPlace_bounds nonzero).1
    have smaller := (Binary64.magnitude_strictMono finite).trans largest
    rw [zpow_add_one₀ (by norm_num)]
    linarith
  rw [zpow_lt_zpow_iff_right₀ (by norm_num)] at below
  omega

/-! ## The neighbours on a grid -/

theorem quotientAt_pos (n : Nat) (place : Int) : 0 < (quotientAt n place).2 := by
  cases place with
  | ofNat k => exact Nat.mul_pos Binary64.unitsPerOne_pos (Nat.pow_pos (by decide))
  | negSucc k => exact Binary64.unitsPerOne_pos

theorem quotientAt_div (bits : Nat) (place : Int) :
    ((quotientAt (units bits) place).1 / (quotientAt (units bits) place).2 : ℚ) =
      magnitude bits / 10 ^ place := by
  rw [magnitude]
  cases place with
  | ofNat k => simp [quotientAt, cast_tenTo, div_div]
  | negSucc k =>
    simp [quotientAt, cast_tenTo, zpow_negSucc]
    ring

/-- The coefficient of the lower neighbour. -/
def lowerAt (bits : Nat) (place : Int) : Nat :=
  (quotientAt (units bits) place).1 / (quotientAt (units bits) place).2

/-- One of the two neighbours is at most half a step away. -/
theorem exists_near (bits : Nat) (place : Int) : ∃ coefficient : Nat,
    (coefficient = lowerAt bits place ∨ coefficient = lowerAt bits place + 1) ∧
      |magnitude bits / 10 ^ place - coefficient| ≤ 1 / 2 := by
  have neighbours := roundQuotient_bounds (quotientAt (units bits) place).1
    (quotientAt (units bits) place).2
  have near := (roundQuotient_near (quotientAt (units bits) place).1
    (quotientAt_pos (units bits) place)).1
  rw [quotientAt_div] at near
  refine ⟨_, ?_, near⟩
  unfold lowerAt
  omega

/-- If one neighbour reads back, one of them is taken. -/
theorem neighbourAt?_ne_none {place : Int} {coefficient : Nat}
    (neighbour : coefficient = lowerAt bits place ∨ coefficient = lowerAt bits place + 1)
    (reads : (Decimal.mk coefficient place).toBits = bits) : neighbourAt? bits place ≠ none := by
  simp only [neighbourAt?]
  unfold lowerAt at neighbour
  obtain rfl | rfl := neighbour
  · rw [if_pos reads]
    split <;> simp
  · split
    · split <;> simp
    · simp

/-- On a grid that shows seventeen digits, the nearer neighbour reads back. -/
theorem neighbourAt?_seventeen (finite : bits < infinityBits) (nonzero : bits ≠ 0) :
    neighbourAt? bits (leadingPlace (units bits) - 17) ≠ none := by
  have leading := (leadingPlace_bounds nonzero).1
  generalize hplace : leadingPlace (units bits) - 17 = place
  have power : (10 : ℚ) ^ leadingPlace (units bits) = 10 ^ place * 10 ^ 17 := by
    rw [← zpow_natCast, ← zpow_add₀ (by norm_num), ← hplace]
    congr 1
    simp
  have grid : (0 : ℚ) < 10 ^ place := by positivity
  obtain ⟨coefficient, neighbour, near⟩ := exists_near bits place
  apply neighbourAt?_ne_none neighbour
  apply (rounds_toBits _).unique
  apply Binary64.rounds_of_near finite.le nonzero
  have distance : |(Decimal.mk coefficient place).value - magnitude bits| =
      |magnitude bits / 10 ^ place - coefficient| * 10 ^ place := by
    rw [← abs_of_pos grid, ← abs_mul, abs_of_pos grid, sub_mul, div_mul_cancel₀ _ grid.ne',
      abs_sub_comm]
    rfl
  have half := mul_le_mul_of_nonneg_right near grid.le
  rw [← distance] at half
  rw [power] at leading
  linarith

theorem neighbour?_ne_none (finite : bits < infinityBits) (nonzero : bits ≠ 0) :
    neighbour? bits ≠ none := by
  intro unfound
  exact neighbourAt?_seventeen finite nonzero
    (List.findSome?_eq_none_iff.1 unfound 16 (List.mem_range.2 (by decide)))

/-! ## The length of positional text -/

/-- Few digits, and the first and the last of them not far from the point. -/
structure Short (d : Decimal) : Prop where
  digits : Digits.count d.coefficient ≤ 18
  leading : Digits.count d.coefficient + d.exponent ≤ 310
  last : -340 ≤ d.exponent

theorem coefficient_neighbourAt? {place : Int} (hit : neighbourAt? bits place = some d) :
    d.coefficient ≤ lowerAt bits place + 1 := by
  simp only [neighbourAt?] at hit
  unfold lowerAt
  split at hit
  · split at hit
    · cases hit
      exact le_rfl
    · cases hit
      exact Nat.le_succ _
  · split at hit
    · cases hit
      exact le_rfl
    · cases hit

/-- The digits of the lower neighbour are those from the leading place on. -/
theorem lowerAt_lt (nonzero : bits ≠ 0) (n : Nat) :
    lowerAt bits (leadingPlace (units bits) - n) < 10 ^ n := by
  have below := (leadingPlace_bounds nonzero).2
  generalize hplace : leadingPlace (units bits) - n = place
  have power : (10 : ℚ) ^ leadingPlace (units bits) = 10 ^ n * 10 ^ place := by
    rw [← zpow_natCast, ← zpow_add₀ (by norm_num), ← hplace, add_sub_cancel]
  have whole := (div_bounds (quotientAt (units bits) place).1 (quotientAt_pos (units bits) place)).1
  rw [quotientAt_div, ← lowerAt] at whole
  rw [power, ← div_lt_iff₀ (by positivity)] at below
  exact_mod_cast whole.trans_lt below

theorem short_neighbourAt? {n : Nat} (finite : bits < infinityBits) (nonzero : bits ≠ 0)
    (few : n < 17) (hit : neighbourAt? bits (leadingPlace (units bits) - (n + 1 : Nat)) = some d) :
    Short d := by
  have range := leadingPlace_range finite nonzero
  have exponent := (neighbourAt?_eq_some hit).2
  have coefficient : d.coefficient ≤ 10 ^ (n + 1) :=
    (coefficient_neighbourAt? hit).trans (lowerAt_lt nonzero (n + 1))
  have count := Digits.count_le coefficient
  refine ⟨by omega, ?_, ?_⟩ <;> rw [exponent] <;> omega

theorem short_normalize (short : Short d) : Short d.normalize := by
  induction d using normalize.induct with
  | case1 d done => rwa [normalize, if_pos done]
  | case2 d more ih =>
    rw [normalize, if_neg more]
    apply ih
    obtain ⟨digits, leading, last⟩ := short
    -- A digit less is a place more, so that the leading digit stays where it is.
    have ten : ¬ d.coefficient < 10 := by omega
    rw [Digits.count, if_neg ten] at digits leading
    push_cast at leading
    exact ⟨by dsimp only; omega, by dsimp only; omega, by dsimp only; omega⟩

theorem short_ofBits (finite : bits < infinityBits) (nonzero : bits ≠ 0) : Short (ofBits bits) := by
  rw [ofBits_eq]
  apply short_normalize
  obtain ⟨d, found⟩ := Option.ne_none_iff_exists'.1 (neighbour?_ne_none finite nonzero)
  obtain ⟨n, few, hit⟩ := List.exists_of_findSome?_eq_some found
  rw [found]
  exact short_neighbourAt? finite nonzero (List.mem_range.1 few) hit

theorem Short.length_positional (short : Short d) : d.positional.length ≤ 342 := by
  obtain ⟨coefficient, exponent⟩ := d
  obtain ⟨digits, leading, last⟩ := short
  dsimp only at digits leading last
  cases exponent with
  | ofNat k =>
    rw [Int.ofNat_eq_natCast] at leading
    simp only [positional, List.length_append, List.length_replicate, Digits.length_ofNat]
    omega
  | negSucc k =>
    obtain ⟨whole, fraction, split, same, length, -⟩ :=
      splitPlaces_eq (Digits.ofNat coefficient) (k + 1)
    have size := congrArg List.length same
    simp only [List.length_append, List.length_replicate, Digits.length_ofNat] at size
    simp only [positional, split, List.length_append, List.length_cons]
    omega

end Decimal

namespace Number

/-- The text of a number is never long. -/
theorem length_chars_le (x : Float) : (chars x).length ≤ 343 := by
  have sign (negative : Bool) : (signText negative).length ≤ 1 := by
    cases negative <;> decide
  rw [chars]
  split
  · decide
  · next negative _ =>
    have := sign negative
    have word : Literal.infinityWord.length = 8 := rfl
    rw [List.length_append]
    omega
  · next negative magnitude finite =>
    have := sign (negative && magnitude != 0)
    have text : (magnitudeText magnitude).length ≤ 342 := by
      rw [magnitudeText]
      split
      · decide
      · next nonzero =>
        exact (Decimal.short_ofBits (Binary64.finite_of_view finite) nonzero).length_positional
    rw [List.length_append]
    omega

end Number
end Reckoner
