import Mathlib.Algebra.Order.Field.Rat
import Mathlib.Data.Rat.Cast.Order
import Mathlib.Tactic.FieldSimp
import Reckoner.Proofs.Rounding

/-! # The value of a decimal

A decimal stands for a rational number, and the bit pattern that it rounds to depends on that number
alone (`toBits_congr`): the shortcuts for very large and very small decimals change nothing
(`toBits_eq`).  So the shortest decimal of a pattern rounds to that pattern (`toBits_ofBits`), and it
is written without a fraction exactly when the pattern stands for a whole number
(`exponent_ofBits_nonneg_iff`).
-/

namespace Reckoner.Decimal

open Binary64 (infinityBits infinityPlaces nearest unitPlaces units unitsPerOne)

variable {d e : Decimal} {bits : Nat}

/-! ## Values -/

/-- The number that a decimal stands for. -/
def value (d : Decimal) : ℚ :=
  d.coefficient * 10 ^ d.exponent

def numerator (d : Decimal) : Nat :=
  match d.exponent with
  | .ofNat k => d.coefficient * tenTo k
  | .negSucc _ => d.coefficient

def denominator (d : Decimal) : Nat :=
  match d.exponent with
  | .ofNat _ => 1
  | .negSucc k => tenTo (k + 1)

theorem denominator_pos (d : Decimal) : 0 < d.denominator := by
  rw [denominator]
  split
  · exact Nat.one_pos
  · exact Nat.pow_pos (by decide)

theorem value_eq_div (d : Decimal) : d.value = d.numerator / d.denominator := by
  obtain ⟨coefficient, exponent⟩ := d
  cases exponent with
  | ofNat k => simp [value, numerator, denominator, tenTo]
  | negSucc k => simp [value, numerator, denominator, tenTo, zpow_negSucc, div_eq_mul_inv]

/-- A factor of ten moves the point. -/
theorem value_mul_ten (coefficient : Nat) (exponent : Int) :
    (Decimal.mk (coefficient * 10) exponent).value =
      (Decimal.mk coefficient (exponent + 1)).value := by
  simp only [value, zpow_add_one₀ (by norm_num : (10 : ℚ) ≠ 0)]
  push_cast
  ring

/-! ## The pattern of a value -/

theorem two_pow_le_tenTo {k : Nat} (large : 309 < k) : 2 ^ infinityPlaces ≤ tenTo k := by
  have bound (n : Nat) : 2 ^ (93 * n + 1) ≤ 10 ^ (28 * n + 1) := by
    rw [Nat.pow_succ, Nat.pow_succ, Nat.pow_mul, Nat.pow_mul]
    exact Nat.mul_le_mul (Nat.pow_le_pow_left (by decide) n) (by decide)
  -- The step count stays a variable, so that no power is computed.
  obtain ⟨n, steps⟩ : ∃ n, n = 11 := ⟨11, rfl⟩
  have places : infinityPlaces = 93 * n + 1 := by
    rw [steps]
    rfl
  rw [places]
  exact Nat.le_trans (bound n) (Nat.pow_le_pow_right (by decide) (by omega))

/-- Rounding goes by the value, whatever shortcut is taken. -/
theorem toBits_eq (d : Decimal) : d.toBits = nearest d.numerator d.denominator := by
  obtain ⟨coefficient, exponent⟩ := d
  cases exponent with
  | ofNat k =>
    simp only [toBits, numerator, denominator]
    split
    · next zero =>
      rw [zero, Nat.zero_mul, Binary64.nearest_eq_zero (by simp)]
    · split
      · next zero large =>
        refine (Binary64.nearest_eq_infinity Nat.one_pos ?_).symm
        calc 2 ^ infinityPlaces * 1 ≤ 1 * tenTo k := by
              rw [Nat.mul_one, Nat.one_mul]
              exact two_pow_le_tenTo large
          _ ≤ coefficient * tenTo k := Nat.mul_le_mul_right _ (Nat.pos_of_ne_zero zero)
      · rfl
  | negSucc k =>
    simp only [toBits, numerator, denominator]
    split
    · next small =>
      refine (Binary64.nearest_eq_zero ?_).symm
      have places : coefficient.log2 + 1 + unitPlaces + 1 ≤ 3 * (k + 1) := small
      calc 2 * (coefficient * unitsPerOne)
          < 2 * (2 ^ (coefficient.log2 + 1) * 2 ^ unitPlaces) := by
            rw [Binary64.unitsPerOne_eq]
            exact Nat.mul_lt_mul_of_pos_left
              (Nat.mul_lt_mul_of_pos_right Nat.lt_log2_self (Nat.two_pow_pos _)) Nat.two_pos
        _ = 2 ^ (coefficient.log2 + 1 + unitPlaces + 1) := by rw [← Nat.pow_add, Nat.pow_succ']
        _ ≤ 2 ^ (3 * (k + 1)) := Nat.pow_le_pow_right Nat.two_pos places
        _ = 8 ^ (k + 1) := by rw [Nat.pow_mul]
        _ ≤ tenTo (k + 1) := Nat.pow_le_pow_left (by decide) _
    · rfl

theorem toBits_congr (same : d.value = e.value) : d.toBits = e.toBits := by
  have hd : (d.denominator : ℚ) ≠ 0 := Nat.cast_ne_zero.2 d.denominator_pos.ne'
  have he : (e.denominator : ℚ) ≠ 0 := Nat.cast_ne_zero.2 e.denominator_pos.ne'
  rw [value_eq_div, value_eq_div, div_eq_div_iff hd he] at same
  rw [toBits_eq, toBits_eq]
  exact Binary64.nearest_congr d.denominator_pos e.denominator_pos (mod_cast same)

/-- A decimal with the value of a pattern has that pattern. -/
theorem toBits_of_value (finite : bits < infinityBits)
    (exact : d.value = units bits / unitsPerOne) : d.toBits = bits := by
  have hd : (d.denominator : ℚ) ≠ 0 := Nat.cast_ne_zero.2 d.denominator_pos.ne'
  have hone : (unitsPerOne : ℚ) ≠ 0 := Nat.cast_ne_zero.2 Binary64.unitsPerOne_pos.ne'
  rw [value_eq_div, div_eq_div_iff hd hone] at exact
  rw [toBits_eq]
  exact Binary64.nearest_of_exact d.denominator_pos finite (mod_cast exact)

theorem toBits_of_coefficient_zero (exponent : Int) : (Decimal.mk 0 exponent).toBits = 0 := by
  rw [toBits_congr (e := ⟨0, 0⟩) (by simp [value])]
  rfl

/-! ## Trailing zeros -/

theorem value_normalize (d : Decimal) : d.normalize.value = d.value := by
  induction d using normalize.induct with
  | case1 d done => rw [normalize, if_pos done]
  | case2 d more ih =>
    have ten : d.coefficient / 10 * 10 = d.coefficient := by omega
    rw [normalize, if_neg more, ih, ← value_mul_ten, ten]

theorem coefficient_normalize (nonzero : d.coefficient ≠ 0) :
    d.normalize.coefficient % 10 ≠ 0 := by
  induction d using normalize.induct with
  | case1 d done =>
    rw [normalize, if_pos done]
    exact done.resolve_left nonzero
  | case2 d more ih =>
    rw [normalize, if_neg more]
    exact ih (by simp only; omega)

/-! ## The shortest decimal -/

theorem value_exactly (bits : Nat) : (exactly bits).value = units bits / unitsPerOne := by
  have powers (n : Nat) : ((Nat.pow 5 n : Nat) : ℚ) * 10 ^ (-(n : Int)) = 1 / 2 ^ n := by
    rw [zpow_neg, zpow_natCast, show (10 : ℚ) = 2 * 5 by norm_num, mul_pow, Nat.pow_eq,
      Nat.cast_pow, Nat.cast_ofNat]
    field_simp
  have places : 1074 = unitPlaces := rfl
  have place : (-1074 : Int) = -(unitPlaces : Int) := rfl
  rw [exactly, value, Binary64.unitsPerOne_eq, place, places, Nat.cast_mul, mul_assoc, powers,
    Nat.cast_pow, Nat.cast_ofNat, mul_one_div]

/-- A neighbour stands on its grid and reads back. -/
theorem neighbourAt?_eq_some {place : Int} (hit : neighbourAt? bits place = some d) :
    d.toBits = bits ∧ d.exponent = place := by
  simp only [neighbourAt?] at hit
  split at hit
  · next low =>
    split at hit
    · next high =>
      cases hit
      exact ⟨high.1, rfl⟩
    · cases hit
      exact ⟨low, rfl⟩
  · split at hit
    · next high =>
      cases hit
      exact ⟨high, rfl⟩
    · cases hit

/-- The first neighbour that reads back, from the coarsest grid on. -/
def neighbour? (bits : Nat) : Option Decimal :=
  (List.range 17).findSome? fun n : Nat =>
    neighbourAt? bits (leadingPlace (units bits) - (n + 1 : Nat))

theorem ofBits_eq (bits : Nat) :
    ofBits bits = ((neighbour? bits).getD (exactly bits)).normalize := rfl

theorem toBits_neighbour (finite : bits < infinityBits) :
    ((neighbour? bits).getD (exactly bits)).toBits = bits := by
  cases search : neighbour? bits with
  | none => exact toBits_of_value finite (value_exactly bits)
  | some d =>
    obtain ⟨n, -, hit⟩ := List.exists_of_findSome?_eq_some search
    exact (neighbourAt?_eq_some hit).1

/-- The shortest decimal reads back. -/
theorem toBits_ofBits (finite : bits < infinityBits) : (ofBits bits).toBits = bits := by
  rw [ofBits_eq, toBits_congr (value_normalize _), toBits_neighbour finite]

/-- The shortest decimal has no trailing zero. -/
theorem coefficient_ofBits (finite : bits < infinityBits) (nonzero : bits ≠ 0) :
    (ofBits bits).coefficient % 10 ≠ 0 := by
  rw [ofBits_eq]
  have reads := toBits_neighbour finite
  generalize (neighbour? bits).getD (exactly bits) = d at reads
  apply coefficient_normalize
  intro zero
  obtain ⟨coefficient, exponent⟩ := d
  subst zero
  rw [toBits_of_coefficient_zero] at reads
  exact nonzero reads.symm

/-! ## Whole numbers -/

theorem count_pos (n : Nat) : 0 < Digits.count n := by
  rw [Digits.count]
  split <;> omega

theorem count_mul_tenTo {n : Nat} (pos : 0 < n) (k : Nat) :
    Digits.count (n * tenTo k) = Digits.count n + k := by
  induction k with
  | zero => exact congrArg Digits.count (Nat.mul_one n)
  | succ k ih =>
    have step : n * tenTo (k + 1) = n * tenTo k * 10 := (Nat.mul_assoc n (tenTo k) 10).symm
    have large : ¬ n * tenTo k * 10 < 10 := by
      have : 0 < n * tenTo k := Nat.mul_pos pos (Nat.pow_pos (by decide))
      omega
    rw [step, Digits.count, if_neg large, Nat.mul_div_cancel _ (by decide), ih, Nat.add_assoc]

/-- The leading place of a whole number is its number of digits. -/
theorem leadingPlace_mul {n : Nat} (pos : 0 < n) :
    leadingPlace (unitsPerOne * n) = Digits.count n := by
  rw [leadingPlace, Nat.mul_assoc, Nat.mul_div_cancel_left _ Binary64.unitsPerOne_pos,
    count_mul_tenTo pos]
  omega

/-- A whole number is its own neighbour on the grid of whole numbers. -/
theorem neighbourAt?_zero_ne_none {n : Nat} (finite : bits < infinityBits)
    (whole : units bits = unitsPerOne * n) : neighbourAt? bits 0 ≠ none := by
  have quotient : units bits / (unitsPerOne * tenTo 0) = n := by
    rw [whole, Nat.mul_div_mul_left _ _ Binary64.unitsPerOne_pos]
    exact Nat.div_one n
  have low : (Decimal.mk n 0).toBits = bits := by
    have hone : (unitsPerOne : ℚ) ≠ 0 := Nat.cast_ne_zero.2 Binary64.unitsPerOne_pos.ne'
    apply toBits_of_value finite
    rw [whole, value, Nat.cast_mul, mul_div_cancel_left₀ _ hone, zpow_zero, mul_one]
  have grid : quotientAt (units bits) 0 = (units bits, unitsPerOne * tenTo 0) := rfl
  simp only [neighbourAt?, grid, quotient, if_pos low]
  split <;> simp

/-- What is below a number of a range stands before it. -/
theorem mem_of_range_eq {earlier later : List Nat} {length step n : Nat}
    (split : List.range length = earlier ++ step :: later) (below : n < step) : n ∈ earlier := by
  have listed : n ∈ List.range length := by
    have : step ∈ List.range length := by simp [split]
    simp only [List.mem_range] at this ⊢
    omega
  have sorted := List.pairwise_lt_range (n := length)
  rw [split] at listed sorted
  obtain member | member := List.mem_append.1 listed
  · exact member
  · obtain same | member := List.mem_cons.1 member
    · omega
    · have after : step < n :=
        List.rel_of_pairwise_cons (List.pairwise_append.1 sorted).2.1 member
      omega

/-- What `ofBits` finds for a whole number is a whole number. -/
theorem value_neighbour_of_whole {n : Nat} (finite : bits < infinityBits) (nonzero : bits ≠ 0)
    (whole : units bits = unitsPerOne * n) :
    ∃ m : Nat, ((neighbour? bits).getD (exactly bits)).value = m := by
  have hone : (unitsPerOne : ℚ) ≠ 0 := Nat.cast_ne_zero.2 Binary64.unitsPerOne_pos.ne'
  have pos : 0 < n := by
    apply Nat.pos_of_ne_zero
    rintro rfl
    have reads := toBits_of_value (d := ⟨0, 0⟩) finite (by simp [value, whole])
    rw [toBits_of_coefficient_zero] at reads
    exact nonzero reads.symm
  cases search : neighbour? bits with
  | none =>
    refine ⟨n, ?_⟩
    rw [Option.getD_none, value_exactly, whole, Nat.cast_mul, mul_div_cancel_left₀ _ hone]
  | some d =>
    obtain ⟨earlier, step, later, split, hit, missed⟩ := List.findSome?_eq_some_iff.1 search
    rw [whole, leadingPlace_mul pos] at hit
    -- Every grid down to the whole numbers holds whole numbers only, and the last of them has a hit.
    have coarse : step + 1 ≤ Digits.count n := by
      by_contra fine
      have digits := count_pos n
      have member : Digits.count n - 1 ∈ earlier := mem_of_range_eq split (by omega)
      have missing := missed _ member
      have grid : (Digits.count n : Int) - (Digits.count n - 1 + 1 : Nat) = 0 := by omega
      rw [whole, leadingPlace_mul pos, grid] at missing
      exact neighbourAt?_zero_ne_none finite whole missing
    have place := (neighbourAt?_eq_some hit).2
    refine ⟨d.coefficient * 10 ^ (Digits.count n - (step + 1)), ?_⟩
    rw [Option.getD_some, value, place, ← Nat.cast_sub coarse, zpow_natCast]
    push_cast
    rfl

/-- Without a trailing zero, a decimal that stands for a whole number has no places. -/
theorem exponent_nonneg_of_whole {m : Nat} (last : d.coefficient % 10 ≠ 0) (whole : d.value = m) :
    0 ≤ d.exponent := by
  obtain ⟨coefficient, exponent⟩ := d
  cases exponent with
  | ofNat k => exact Int.natCast_nonneg k
  | negSucc k =>
    have hten : (10 : ℚ) ^ (k + 1) ≠ 0 := pow_ne_zero _ (by norm_num)
    rw [value, zpow_negSucc, ← div_eq_mul_inv, div_eq_iff hten] at whole
    have product : coefficient = m * 10 ^ (k + 1) := by exact_mod_cast whole
    rw [product, Nat.pow_succ, ← Nat.mul_assoc, Nat.mul_mod_left] at last
    exact absurd rfl last

/-- The shortest decimal has no places exactly if the pattern stands for a whole number. -/
theorem exponent_ofBits_nonneg_iff (finite : bits < infinityBits) (nonzero : bits ≠ 0) :
    0 ≤ (ofBits bits).exponent ↔ unitsPerOne ∣ units bits := by
  constructor
  · intro nonneg
    have reads := toBits_ofBits finite
    obtain ⟨k, place⟩ := Int.eq_ofNat_of_zero_le nonneg
    rw [toBits_eq, denominator, place] at reads
    rw [← reads] at finite ⊢
    exact Binary64.dvd_units_nearest finite
  · rintro ⟨n, whole⟩
    obtain ⟨m, hm⟩ := value_neighbour_of_whole finite nonzero whole
    rw [← value_normalize, ← ofBits_eq] at hm
    exact exponent_nonneg_of_whole (coefficient_ofBits finite nonzero) hm

end Reckoner.Decimal
