import Mathlib.Algebra.Order.Field.Basic
import Mathlib.Tactic.Linarith
import Mathlib.Tactic.Positivity
import Reckoner.Proofs.Decimals

/-! # Correct rounding

`Rounds` says what rounding to the nearest pattern means without saying how it is done: no pattern is
closer, and of two equally close ones the even one is taken.  Only one pattern is left by that
(`Rounds.unique`), and `nearest` finds it (`rounds_nearest`).
-/

namespace Reckoner.Binary64

/-- The number of a pattern. That of infinity is the power of two which follows the finite numbers. -/
def magnitude (bits : Nat) : ℚ :=
  units bits / unitsPerOne

/-- The pattern is the nearest one to the value; a tie goes to the even pattern. -/
structure Rounds (value : ℚ) (bits : Nat) : Prop where
  ordered : bits ≤ infinityBits
  closest : ∀ other ≤ infinityBits, |value - magnitude bits| ≤ |value - magnitude other|
  even : ∀ other ≤ infinityBits, other ≠ bits →
    |value - magnitude other| = |value - magnitude bits| → bits % 2 = 0

/-! ## Neighbouring patterns -/

/-- Without a carry, the next pattern is one unit of the place larger. -/
theorem units_succ {place significand : Nat} (placed : Placed place significand)
    (within : significand < 2 * hiddenBit) :
    units (place * hiddenBit + significand + 1) =
      units (place * hiddenBit + significand) + 2 ^ place := by
  have next : Placed place (significand + 1) :=
    ⟨within, placed.lower.imp_right fun normal => Nat.le_succ_of_le normal⟩
  rw [Nat.add_assoc, units_place next, units_place placed, Nat.succ_mul]

theorem units_strictMono : StrictMono units := by
  refine strictMono_nat_of_lt_succ fun bits => ?_
  obtain ⟨place, significand, placed, within, rfl⟩ := exists_placed bits
  rw [units_succ placed within]
  exact Nat.lt_add_of_pos_right (Nat.two_pow_pos place)

theorem magnitude_strictMono : StrictMono magnitude := by
  intro a b below
  have hone : (0 : ℚ) < unitsPerOne := by exact_mod_cast unitsPerOne_pos
  have smaller : (units a : ℚ) < units b := by exact_mod_cast units_strictMono below
  exact div_lt_div_of_pos_right smaller hone

/-- A larger pattern is larger by a unit of the place at least. -/
theorem units_add_le {place significand other : Nat} (placed : Placed place significand)
    (above : place * hiddenBit + significand < other) :
    units (place * hiddenBit + significand) + 2 ^ place ≤ units other := by
  have mono : units (place * hiddenBit + significand + 1) ≤ units other :=
    units_strictMono.monotone above
  obtain carry | within := Nat.eq_or_lt_of_le placed.upper
  · -- With a carry the next place has begun already, where the steps are twice as long.
    have block : place * hiddenBit + significand = (place + 1) * hiddenBit + hiddenBit := by
      rw [carry]
      ring
    have begun : Placed (place + 1) hiddenBit := ⟨by omega, .inr le_rfl⟩
    have step := units_succ begun (by decide)
    rw [block] at mono ⊢
    have longer : 2 ^ place ≤ 2 ^ (place + 1) := Nat.pow_le_pow_right Nat.two_pos (Nat.le_succ _)
    omega
  · rw [← units_succ placed within]
    exact mono

/-- A smaller pattern is smaller by a unit of the place at least, unless the place begins here. -/
theorem units_add_le_of_lt {place significand other : Nat} (placed : Placed place significand)
    (inside : place = 0 ∨ hiddenBit < significand) (below : other < place * hiddenBit + significand) :
    units other + 2 ^ place ≤ units (place * hiddenBit + significand) := by
  obtain ⟨before, rfl⟩ : ∃ before, significand = before + 1 := by
    refine Nat.exists_eq_succ_of_ne_zero ?_
    rintro rfl
    obtain rfl | positive := inside
    · simp at below
    · exact Nat.not_lt_zero _ positive
  have previous : Placed place before :=
    ⟨Nat.le_of_succ_le placed.upper, inside.imp_right Nat.le_of_lt_succ⟩
  have mono := units_strictMono.monotone (Nat.le_of_lt_succ below)
  have step := units_succ previous (Nat.lt_of_succ_le placed.upper)
  rw [← Nat.add_assoc, step]
  exact Nat.add_le_add_right mono _

/-! ## The nearest pattern -/

/-- The significand is at most half a unit away, a half only if it is even, and where its place
begins it is not too large. -/
structure Fitting (x : ℚ) (place significand : Nat) : Prop extends Placed place significand where
  near : |x - significand * 2 ^ place| ≤ 2 ^ place / 2
  tie : |x - significand * 2 ^ place| = 2 ^ place / 2 → significand % 2 = 0
  begins : x < significand * 2 ^ place → place = 0 ∨ hiddenBit < significand

/-- No pattern is closer than a fitting one, even past infinity. -/
theorem Fitting.closest {x : ℚ} {place significand other : Nat} (fitting : Fitting x place significand)
    (different : other ≠ place * hiddenBit + significand) :
    |x - units (place * hiddenBit + significand)| ≤ |x - units other| ∧
      (|x - units other| = |x - units (place * hiddenBit + significand)| →
        (place * hiddenBit + significand) % 2 = 0) := by
  obtain ⟨placed, near, tie, begins⟩ := fitting
  have value : (units (place * hiddenBit + significand) : ℚ) = significand * 2 ^ place := by
    rw [units_place placed]
    push_cast
    rfl
  have parity : (place * hiddenBit + significand) % 2 = significand % 2 := by
    have even : hiddenBit % 2 = 0 := rfl
    simp [Nat.add_mod, Nat.mul_mod, even]
  rw [parity]
  rw [← value] at near tie begins
  -- Who is a whole unit away on the far side is at least half a unit from the value.
  have far : |x - units (place * hiddenBit + significand)| ≤ |x - units other| →
      2 ^ place / 2 ≤ |x - units other| →
      |x - units (place * hiddenBit + significand)| ≤ |x - units other| ∧
        (|x - units other| = |x - units (place * hiddenBit + significand)| →
          significand % 2 = 0) := by
    intro closer half
    exact ⟨closer, fun same => tie (le_antisymm near (same ▸ half))⟩
  have bounds := abs_le.1 near
  obtain below | above := Nat.lt_or_gt_of_ne different
  · by_cases under : x < units (place * hiddenBit + significand)
    · have gap : (units other : ℚ) + 2 ^ place ≤ units (place * hiddenBit + significand) := by
        exact_mod_cast units_add_le_of_lt placed (begins under) below
      have half : 2 ^ place / 2 ≤ |x - units other| := by
        refine le_trans ?_ (le_abs_self _)
        linarith
      exact far (near.trans half) half
    · have smaller : (units other : ℚ) < units (place * hiddenBit + significand) := by
        exact_mod_cast units_strictMono below
      have strict : |x - units (place * hiddenBit + significand)| < |x - units other| := by
        rw [abs_of_nonneg (by linarith), abs_of_nonneg (by linarith)]
        linarith
      exact ⟨strict.le, fun same => absurd same strict.ne'⟩
  · have gap : (units (place * hiddenBit + significand) : ℚ) + 2 ^ place ≤ units other := by
      exact_mod_cast units_add_le placed above
    have half : 2 ^ place / 2 ≤ |x - units other| := by
      refine le_trans ?_ (neg_le_abs _)
      linarith
    exact far (near.trans half) half

theorem roundQuotient_near (numerator : Nat) {denominator : Nat} (pos : 0 < denominator) :
    |(numerator / denominator : ℚ) - roundQuotient numerator denominator| ≤ 1 / 2 ∧
      (|(numerator / denominator : ℚ) - roundQuotient numerator denominator| = 1 / 2 →
        roundQuotient numerator denominator % 2 = 0) := by
  have hden : (0 : ℚ) < denominator := by exact_mod_cast pos
  have split : (numerator : ℚ) / denominator =
      (numerator / denominator : Nat) + (numerator % denominator : Nat) / denominator := by
    rw [div_eq_iff hden.ne', add_mul, div_mul_cancel₀ _ hden.ne']
    exact_mod_cast (Nat.div_add_mod' numerator denominator).symm
  have nonneg : (0 : ℚ) ≤ (numerator % denominator : Nat) / denominator := by positivity
  have below : ((numerator % denominator : Nat) / denominator : ℚ) < 1 := by
    rw [div_lt_one hden]
    exact_mod_cast Nat.mod_lt numerator pos
  rw [split]
  simp only [roundQuotient]
  split
  · next down =>
    have small : ((numerator % denominator : Nat) / denominator : ℚ) < 1 / 2 := by
      rw [div_lt_div_iff₀ hden two_pos]
      exact_mod_cast (by omega : numerator % denominator * 2 < 1 * denominator)
    rw [add_sub_cancel_left, abs_of_nonneg nonneg]
    exact ⟨small.le, fun same => absurd same small.ne⟩
  · split
    · next up =>
      have large : (1 / 2 : ℚ) < (numerator % denominator : Nat) / denominator := by
        rw [div_lt_div_iff₀ two_pos hden]
        exact_mod_cast (by omega : 1 * denominator < numerator % denominator * 2)
      rw [Nat.cast_add_one, add_sub_add_left_eq_sub, abs_of_nonpos (by linarith)]
      exact ⟨by linarith, fun same => by linarith⟩
    · next down up =>
      have half : ((numerator % denominator : Nat) / denominator : ℚ) = 1 / 2 := by
        rw [div_eq_div_iff hden.ne' two_ne_zero]
        exact_mod_cast (by omega : numerator % denominator * 2 = 1 * denominator)
      rw [half]
      -- The parity of the quotient decides, and the sum is even either way.
      obtain even | odd := Nat.mod_two_eq_zero_or_one (numerator / denominator)
      · rw [even]
        norm_num
        exact even
      · rw [odd]
        norm_num
        omega

theorem fitting_nearest (numerator : Nat) {denominator : Nat} (pos : 0 < denominator) :
    Fitting ((numerator * unitsPerOne : Nat) / denominator) (placeOf numerator denominator)
      (significandOf numerator denominator) := by
  have placed := placed_nearest numerator denominator
  have power : (0 : ℚ) < 2 ^ placeOf numerator denominator := by positivity
  have hden : (0 : ℚ) < denominator := by exact_mod_cast pos
  obtain ⟨near, tie⟩ := roundQuotient_near (numerator * unitsPerOne)
    (Nat.mul_pos pos (Nat.two_pow_pos (placeOf numerator denominator)))
  rw [← significandOf] at near tie
  -- What is rounded is the value measured in units of the place.
  have scale : |((numerator * unitsPerOne : Nat) / denominator : ℚ) -
        significandOf numerator denominator * 2 ^ placeOf numerator denominator| =
      |((numerator * unitsPerOne : Nat) /
          (denominator * 2 ^ placeOf numerator denominator : Nat) : ℚ) -
        significandOf numerator denominator| * 2 ^ placeOf numerator denominator := by
    rw [← abs_of_pos power, ← abs_mul, abs_of_pos power, sub_mul, Nat.cast_mul denominator,
      Nat.cast_pow, Nat.cast_ofNat, div_mul_eq_mul_div, mul_div_mul_right _ _ power.ne']
  refine ⟨placed, ?_, ?_, ?_⟩
  · rw [scale]
    exact (mul_le_mul_of_nonneg_right near power.le).trans (by linarith)
  · intro same
    rw [scale] at same
    exact tie (mul_right_cancel₀ power.ne' (by linarith))
  · intro under
    by_contra inside
    obtain ⟨later, small⟩ := not_or.1 inside
    have filled := hiddenBit_le_div later
    rw [Nat.le_div_iff_mul_le (Nat.two_pow_pos _), Nat.le_div_iff_mul_le pos] at filled
    have reached : (hiddenBit * 2 ^ placeOf numerator denominator : ℚ) ≤
        (numerator * unitsPerOne : Nat) / denominator := by
      rw [le_div_iff₀ hden]
      exact_mod_cast filled
    have upper : (significandOf numerator denominator * 2 ^ placeOf numerator denominator : ℚ) ≤
        hiddenBit * 2 ^ placeOf numerator denominator := by
      exact mul_le_mul_of_nonneg_right (by exact_mod_cast Nat.le_of_not_lt small) power.le
    linarith

/-- The pattern of infinity takes the place of a larger one. -/
theorem closest_nearest {numerator denominator other : Nat} (pos : 0 < denominator)
    (ordered : other ≤ infinityBits) (different : other ≠ nearest numerator denominator) :
    |((numerator * unitsPerOne : Nat) / denominator : ℚ) - units (nearest numerator denominator)| ≤
        |((numerator * unitsPerOne : Nat) / denominator : ℚ) - units other| ∧
      (|((numerator * unitsPerOne : Nat) / denominator : ℚ) - units other| =
        |((numerator * unitsPerOne : Nat) / denominator : ℚ) -
          units (nearest numerator denominator)| → nearest numerator denominator % 2 = 0) := by
  have fitting := fitting_nearest numerator pos
  rw [nearest_eq] at different ⊢
  generalize ((numerator * unitsPerOne : Nat) / denominator : ℚ) = x at fitting ⊢
  obtain past | within := Nat.lt_or_ge infinityBits
    (placeOf numerator denominator * hiddenBit + significandOf numerator denominator)
  · rw [Nat.min_eq_right past.le] at different ⊢
    have smaller : (units other : ℚ) < units infinityBits := by
      exact_mod_cast units_strictMono (Nat.lt_of_le_of_ne ordered different)
    have larger : (units infinityBits : ℚ) <
        units (placeOf numerator denominator * hiddenBit + significandOf numerator denominator) := by
      exact_mod_cast units_strictMono past
    have reached : (units infinityBits : ℚ) ≤ x := by
      by_contra under
      have closer := (fitting.closest past.ne).1
      rw [abs_of_nonpos (by linarith), abs_of_nonpos (by linarith)] at closer
      linarith
    have strict : |x - units infinityBits| < |x - units other| := by
      rw [abs_of_nonneg (by linarith), abs_of_nonneg (by linarith)]
      linarith
    exact ⟨strict.le, fun same => absurd same strict.ne'⟩
  · rw [Nat.min_eq_left within] at different ⊢
    exact fitting.closest different

/-- Distances are measured in units. -/
theorem distance_eq (value : ℚ) (bits : Nat) :
    |value - magnitude bits| = |value * unitsPerOne - units bits| / unitsPerOne := by
  have hone : (0 : ℚ) < unitsPerOne := by exact_mod_cast unitsPerOne_pos
  rw [← abs_of_pos hone, ← abs_div, abs_of_pos hone, sub_div, mul_div_cancel_right₀ _ hone.ne',
    magnitude]

theorem rounds_nearest {numerator denominator : Nat} (pos : 0 < denominator) :
    Rounds (numerator / denominator) (nearest numerator denominator) := by
  have hone : (0 : ℚ) < unitsPerOne := by exact_mod_cast unitsPerOne_pos
  have scaled : (numerator / denominator * unitsPerOne : ℚ) =
      (numerator * unitsPerOne : Nat) / denominator := by
    rw [div_mul_eq_mul_div, Nat.cast_mul]
  refine ⟨?_, ?_, ?_⟩
  · rw [nearest_eq]
    exact Nat.min_le_right _ _
  · intro other ordered
    by_cases same : other = nearest numerator denominator
    · rw [same]
    · rw [distance_eq, distance_eq, scaled]
      exact div_le_div_of_nonneg_right (closest_nearest pos ordered same).1 hone.le
  · intro other ordered different equal
    rw [distance_eq, distance_eq, scaled, div_left_inj' hone.ne'] at equal
    exact (closest_nearest pos ordered different).2 equal

/-! ## Only one pattern is left -/

/-- Between two patterns that are equally close there is no third one, and both are even. -/
theorem Rounds.not_lt {value : ℚ} {a b : Nat} (first : Rounds value a) (second : Rounds value b) :
    ¬ a < b := by
  intro below
  have same : |value - magnitude a| = |value - magnitude b| :=
    le_antisymm (first.closest b second.ordered) (second.closest a first.ordered)
  have evenFirst := first.even b second.ordered below.ne' same.symm
  have evenSecond := second.even a first.ordered below.ne same
  have between : a + 1 < b := by omega
  have lower : magnitude a < magnitude (a + 1) := magnitude_strictMono (Nat.lt_succ_self a)
  have upper : magnitude (a + 1) < magnitude b := magnitude_strictMono between
  have ordered := second.ordered
  have closest := first.closest (a + 1) (by omega)
  obtain middle | equal := abs_eq_abs.1 same
  · linarith
  · -- The value is the mean of the two, so whatever is between them is closer.
    rw [abs_of_pos (by linarith)] at closest
    obtain near | near := abs_cases (value - magnitude (a + 1)) <;> linarith

theorem Rounds.unique {value : ℚ} {a b : Nat} (first : Rounds value a) (second : Rounds value b) :
    a = b :=
  Nat.le_antisymm (Nat.le_of_not_lt (second.not_lt first)) (Nat.le_of_not_lt (first.not_lt second))

end Reckoner.Binary64

namespace Reckoner.Decimal

open Binary64 (Rounds)

/-- A decimal is rounded correctly. -/
theorem rounds_toBits (d : Decimal) : Rounds d.value d.toBits := by
  rw [value_eq_div, toBits_eq]
  exact Binary64.rounds_nearest d.denominator_pos

end Reckoner.Decimal
