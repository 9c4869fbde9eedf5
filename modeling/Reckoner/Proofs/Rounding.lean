import Mathlib.Data.Nat.Log
import Mathlib.Tactic.Ring
import Reckoner.Decimal.Shortest

/-! # Rounding to a bit pattern

A finite bit pattern is a significand at a place, and its units are that significand shifted by the
place (`units_place`).  `nearest` finds the place first and rounds there, so it depends on a
quotient's value alone (`nearest_congr`), gives back what is a pattern's value already
(`nearest_of_exact`), and leaves whole numbers whole (`dvd_units_nearest`).
-/

namespace Reckoner.Binary64

theorem hiddenBit_eq : hiddenBit = 2 ^ 52 := rfl

/-- A unit stands so many binary places below one. -/
def unitPlaces : Nat := 1074

/-- From so many binary places on, infinity stands in for a number. -/
def infinityPlaces : Nat := 1024

theorem unitsPerOne_eq : unitsPerOne = 2 ^ unitPlaces := Nat.one_shiftLeft unitPlaces

theorem unitsPerOne_pos : 0 < unitsPerOne := by
  rw [unitsPerOne_eq]
  exact Nat.two_pow_pos unitPlaces

/-! ## Significands at a place -/

/-- The significand fits the place. Twice the hidden bit is a carry into the next place. -/
structure Placed (place significand : Nat) : Prop where
  upper : significand ≤ 2 * hiddenBit
  lower : place = 0 ∨ hiddenBit ≤ significand

theorem units_place {place significand : Nat} (placed : Placed place significand) :
    units (place * hiddenBit + significand) = significand * 2 ^ place := by
  obtain ⟨upper, lower⟩ := placed
  have pos : 0 < hiddenBit := by decide
  by_cases subnormal : place * hiddenBit + significand < hiddenBit
  · have first : place = 0 := by
      by_contra later
      have := Nat.le_mul_of_pos_left hiddenBit (Nat.pos_of_ne_zero later)
      omega
    subst first
    rw [units, if_pos subnormal]
    simp
  · rw [units, if_neg subnormal, Nat.shiftLeft_eq]
    -- With a carry this is the first pattern of the next block.
    obtain carry | within := Nat.eq_or_lt_of_le upper
    · have block : place * hiddenBit + significand = (place + 2) * hiddenBit := by
        rw [carry, Nat.add_mul]
      rw [block, Nat.mul_mod_left, Nat.mul_div_cancel _ pos, carry, Nat.add_zero,
        show place + 2 - 1 = place + 1 from rfl, Nat.pow_succ]
      ring
    · have normal : hiddenBit ≤ significand := by
        obtain rfl | normal := lower
        · omega
        · exact normal
      have block : place * hiddenBit + significand =
          (significand - hiddenBit) + (place + 1) * hiddenBit := by
        rw [Nat.add_mul]
        omega
      have small : significand - hiddenBit < hiddenBit := by omega
      rw [block, Nat.add_mul_mod_self_right, Nat.add_mul_div_right _ _ pos,
        Nat.mod_eq_of_lt small, Nat.div_eq_of_lt small, Nat.zero_add, Nat.add_sub_cancel,
        Nat.add_sub_cancel' normal]

/-- Every pattern is a significand at a place, without a carry. -/
theorem exists_placed (bits : Nat) : ∃ place significand, Placed place significand ∧
    significand < 2 * hiddenBit ∧ bits = place * hiddenBit + significand := by
  have pos : 0 < hiddenBit := by decide
  have split := Nat.div_add_mod' bits hiddenBit
  have below := Nat.mod_lt bits pos
  cases block : bits / hiddenBit with
  | zero =>
    rw [block] at split
    exact ⟨0, bits, ⟨by omega, .inl rfl⟩, by omega, by omega⟩
  | succ place =>
    rw [block, Nat.add_mul] at split
    exact ⟨place, hiddenBit + bits % hiddenBit, ⟨by omega, .inr (by omega)⟩, by omega, by omega⟩

/-! ## Rounding a quotient -/

theorem roundQuotient_mul_left {a : Nat} (pos : 0 < a) (numerator denominator : Nat) :
    roundQuotient (a * numerator) (a * denominator) = roundQuotient numerator denominator := by
  have twice : 2 * (a * numerator % (a * denominator)) = a * (2 * (numerator % denominator)) := by
    rw [Nat.mul_mod_mul_left]
    ring
  simp only [roundQuotient, twice, Nat.mul_div_mul_left _ _ pos, Nat.mul_lt_mul_left pos]

theorem roundQuotient_mul {denominator : Nat} (pos : 0 < denominator) (value : Nat) :
    roundQuotient (value * denominator) denominator = value := by
  simp [roundQuotient, Nat.mul_mod_left, Nat.mul_div_cancel _ pos, pos]

theorem roundQuotient_bounds (numerator denominator : Nat) :
    numerator / denominator ≤ roundQuotient numerator denominator ∧
      roundQuotient numerator denominator ≤ numerator / denominator + 1 := by
  simp only [roundQuotient]
  split
  · omega
  · split <;> omega

/-! ## The nearest pattern -/

/-- The place at which a quotient is rounded. -/
def placeOf (numerator denominator : Nat) : Nat :=
  (numerator * unitsPerOne / denominator).log2 - 52

/-- The significand of a quotient at its place. -/
def significandOf (numerator denominator : Nat) : Nat :=
  roundQuotient (numerator * unitsPerOne) (denominator * 2 ^ placeOf numerator denominator)

theorem nearest_eq (numerator denominator : Nat) : nearest numerator denominator =
    min (placeOf numerator denominator * hiddenBit + significandOf numerator denominator)
      infinityBits := by
  rw [nearest, significandOf, placeOf, Nat.shiftLeft_eq]

/-- Past the first place, the whole part of a quotient fills its place. -/
theorem hiddenBit_le_div {numerator denominator : Nat}
    (later : placeOf numerator denominator ≠ 0) :
    hiddenBit ≤
      numerator * unitsPerOne / denominator / 2 ^ placeOf numerator denominator := by
  have place : placeOf numerator denominator =
      (numerator * unitsPerOne / denominator).log2 - 52 := rfl
  generalize numerator * unitsPerOne / denominator = whole at place ⊢
  have nonzero : whole ≠ 0 := by
    rintro rfl
    simp at place
    exact later place
  have above := Nat.log2_self_le nonzero
  have exponent : whole.log2 = 52 + placeOf numerator denominator := by omega
  rwa [exponent, Nat.pow_add, ← Nat.le_div_iff_mul_le (Nat.two_pow_pos _), ← hiddenBit_eq] at above

theorem placed_nearest (numerator denominator : Nat) :
    Placed (placeOf numerator denominator) (significandOf numerator denominator) := by
  have bounds := roundQuotient_bounds (numerator * unitsPerOne)
    (denominator * 2 ^ placeOf numerator denominator)
  rw [← significandOf, ← Nat.div_div_eq_div_mul] at bounds
  constructor
  · have place : placeOf numerator denominator =
        (numerator * unitsPerOne / denominator).log2 - 52 := rfl
    generalize numerator * unitsPerOne / denominator = whole at bounds place
    -- 53 binary digits are left in front of the place, and rounding adds one at most.
    have below : whole < 2 ^ (placeOf numerator denominator + 53) :=
      Nat.lt_of_lt_of_le Nat.lt_log2_self (Nat.pow_le_pow_right (by decide) (by omega))
    rw [Nat.add_comm, Nat.pow_add, ← Nat.div_lt_iff_lt_mul (Nat.two_pow_pos _)] at below
    have carry : 2 * hiddenBit = 2 ^ 53 := rfl
    omega
  · by_cases first : placeOf numerator denominator = 0
    · exact .inl first
    · exact .inr (Nat.le_trans (hiddenBit_le_div first) bounds.1)

theorem units_nearest {numerator denominator : Nat}
    (finite : nearest numerator denominator < infinityBits) :
    units (nearest numerator denominator) =
      significandOf numerator denominator * 2 ^ placeOf numerator denominator := by
  rw [nearest_eq] at finite ⊢
  rw [Nat.min_eq_left (by omega), units_place (placed_nearest numerator denominator)]

theorem nearest_mul_left {a : Nat} (pos : 0 < a) (numerator denominator : Nat) :
    nearest (a * numerator) (a * denominator) = nearest numerator denominator := by
  have place : placeOf (a * numerator) (a * denominator) = placeOf numerator denominator := by
    rw [placeOf, Nat.mul_assoc, Nat.mul_div_mul_left _ _ pos, placeOf]
  rw [nearest_eq, nearest_eq, significandOf, place, Nat.mul_assoc, Nat.mul_assoc,
    roundQuotient_mul_left pos, significandOf]

/-- Equal quotients have the same nearest pattern. -/
theorem nearest_congr {numerator denominator numerator' denominator' : Nat}
    (pos : 0 < denominator) (pos' : 0 < denominator')
    (same : numerator * denominator' = numerator' * denominator) :
    nearest numerator denominator = nearest numerator' denominator' := by
  rw [← nearest_mul_left pos' numerator, ← nearest_mul_left pos numerator', Nat.mul_comm _ numerator,
    same, Nat.mul_comm numerator', Nat.mul_comm denominator']

/-- What is the value of a pattern already is not changed. -/
theorem nearest_of_exact {numerator denominator bits : Nat} (pos : 0 < denominator)
    (finite : bits < infinityBits)
    (exact : numerator * unitsPerOne = units bits * denominator) :
    nearest numerator denominator = bits := by
  obtain ⟨place, significand, placed, within, rfl⟩ := exists_placed bits
  rw [units_place placed] at exact
  have whole : numerator * unitsPerOne / denominator = significand * 2 ^ place := by
    rw [exact, Nat.mul_div_cancel _ pos]
  have found : placeOf numerator denominator = place := by
    rw [placeOf, whole]
    have carry : 2 * hiddenBit = 2 ^ 53 := rfl
    -- The place is where the 53rd digit stands, or the first one if there are fewer digits.
    obtain rfl | normal := placed.lower
    · by_cases zero : significand = 0
      · simp [zero]
      · have := (Nat.log2_lt zero).2 (carry ▸ within)
        simp
        omega
    · have nonzero : significand ≠ 0 := by
        have : 0 < hiddenBit := by decide
        omega
      have log : (significand * 2 ^ place).log2 = 52 + place := by
        have pos := Nat.two_pow_pos place
        rw [Nat.log2_eq_iff (Nat.mul_ne_zero nonzero pos.ne'), Nat.pow_add,
          show 52 + place + 1 = 53 + place by omega, Nat.pow_add]
        exact ⟨Nat.mul_le_mul_right _ normal, Nat.mul_lt_mul_of_pos_right (carry ▸ within) pos⟩
      rw [log, Nat.add_sub_cancel_left]
  have rounded : significandOf numerator denominator = significand := by
    rw [significandOf, found, exact, Nat.mul_assoc, Nat.mul_comm (2 ^ place),
      roundQuotient_mul (Nat.mul_pos pos (Nat.two_pow_pos place))]
  rw [nearest_eq, found, rounded, Nat.min_eq_left (Nat.le_of_lt finite)]

/-- What is less than half a unit is nearest to zero. -/
theorem nearest_eq_zero {numerator denominator : Nat}
    (small : 2 * (numerator * unitsPerOne) < denominator) : nearest numerator denominator = 0 := by
  have below : numerator * unitsPerOne < denominator := by omega
  have place : placeOf numerator denominator = 0 := by
    rw [placeOf, Nat.div_eq_of_lt below]
    rfl
  have rounded : significandOf numerator denominator = 0 := by
    simp [significandOf, place, roundQuotient, Nat.mod_eq_of_lt below, small,
      Nat.div_eq_of_lt below]
  simp [nearest_eq, place, rounded]

/-- What is past the last place is nearest to infinity. -/
theorem nearest_eq_infinity {numerator denominator : Nat} (pos : 0 < denominator)
    (large : 2 ^ infinityPlaces * denominator ≤ numerator) :
    nearest numerator denominator = infinityBits := by
  have whole : 2 ^ (infinityPlaces + unitPlaces) ≤ numerator * unitsPerOne / denominator := by
    rw [Nat.le_div_iff_mul_le pos, unitsPerOne_eq]
    calc 2 ^ (infinityPlaces + unitPlaces) * denominator
        = 2 ^ infinityPlaces * denominator * 2 ^ unitPlaces := by rw [Nat.pow_add, Nat.mul_right_comm]
      _ ≤ numerator * 2 ^ unitPlaces := Nat.mul_le_mul_right _ large
  have nonzero : numerator * unitsPerOne / denominator ≠ 0 :=
    (Nat.lt_of_lt_of_le (Nat.two_pow_pos _) whole).ne'
  have place : 2046 ≤ placeOf numerator denominator :=
    Nat.sub_le_sub_right ((Nat.le_log2 nonzero).2 whole) 52
  have normal : hiddenBit ≤ significandOf numerator denominator := by
    obtain first | normal := (placed_nearest numerator denominator).lower
    · simp [first] at place
    · exact normal
  have last : infinityBits = 2046 * hiddenBit + hiddenBit := rfl
  rw [nearest_eq, last]
  exact Nat.min_eq_right (Nat.add_le_add (Nat.mul_le_mul_right hiddenBit place) normal)

/-- A whole number is a multiple of the unit at a place below one, so nothing is rounded there. -/
theorem significandOf_whole {n : Nat} (small : placeOf n 1 ≤ unitPlaces) :
    significandOf n 1 * 2 ^ placeOf n 1 = n * unitsPerOne := by
  have split : n * unitsPerOne = n * 2 ^ (unitPlaces - placeOf n 1) * (1 * 2 ^ placeOf n 1) := by
    rw [unitsPerOne_eq, Nat.one_mul, Nat.mul_assoc, ← Nat.pow_add, Nat.sub_add_cancel small]
  have exact : significandOf n 1 = n * 2 ^ (unitPlaces - placeOf n 1) := by
    rw [significandOf, split, roundQuotient_mul (by simp)]
  rw [exact, split, Nat.one_mul]

/-- The pattern nearest to a whole number has a whole number for its value. -/
theorem dvd_units_nearest {n : Nat} (finite : nearest n 1 < infinityBits) :
    unitsPerOne ∣ units (nearest n 1) := by
  rw [units_nearest finite]
  obtain large | small := Nat.le_total unitPlaces (placeOf n 1)
  · rw [unitsPerOne_eq]
    exact Dvd.dvd.mul_left (Nat.pow_dvd_pow 2 large) _
  · exact Dvd.intro_left n (significandOf_whole small).symm

end Reckoner.Binary64
