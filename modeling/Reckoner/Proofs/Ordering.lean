import Reckoner.Proofs.Floats
import Reckoner.Proofs.Nearest

/-! # The order of floats

Signs apart, the larger of two floats is the one with the larger pattern, as a pattern counts places
first and then significands (`place_lt_or_significand_lt`).  So floats are compared by their signed
patterns (`compare_unpack`), and with a whole number they compare as the numbers that they stand for
(`lt_ofInt_iff`, `ofInt_lt_iff`).
-/

namespace Reckoner.Binary64

open Float.Model (Format UnpackedFloat)
open Float.Model.UnpackedFloat (unpack unpackExponent unpackMantissa unpackSign Sign)

/-! ## Floats taken apart -/

/-- The significand of a magnitude, with the hidden bit if there is one. -/
def fullSignificand (bits : Nat) : Nat :=
  if bits < hiddenBit then bits else hiddenBit + bits % hiddenBit

/-- The binary place at which a magnitude's significand ends. -/
def lastPlace (bits : Nat) : Int :=
  (max (bits / hiddenBit) 1 : Nat) - 1075

theorem fullSignificand_pos {bits : Nat} (nonzero : bits ≠ 0) : 0 < fullSignificand bits := by
  have hidden : 0 < hiddenBit := by decide
  rw [fullSignificand]
  split <;> omega

def signOf (negative : Bool) : Sign :=
  if negative then .negative else .positive

/-- A view, with the significand and the place of a finite number. -/
def View.unpacked : View → UnpackedFloat
  | .nan => .notANumber
  | .infinite negative => .infinity (signOf negative)
  | .finite negative bits =>
    if nonzero : bits = 0 then .zero (signOf negative)
    else .finite (signOf negative) (fullSignificand bits) (lastPlace bits)
      (fullSignificand_pos nonzero)

section Unpacked

variable {negative : Bool} {bits : Nat}

theorem unpacked_zero : (View.finite negative 0).unpacked = .zero (signOf negative) := rfl

theorem unpacked_subnormal (small : bits < hiddenBit) (positive : 0 < bits) :
    (View.finite negative bits).unpacked = .finite (signOf negative) bits (-1074) positive := by
  rw [View.unpacked, dif_neg positive.ne']
  simp only [fullSignificand, if_pos small, lastPlace, Nat.div_eq_of_lt small]
  rfl

theorem unpacked_normal (large : hiddenBit ≤ bits) (positive : 0 < hiddenBit + bits % hiddenBit) :
    (View.finite negative bits).unpacked = .finite (signOf negative) (hiddenBit + bits % hiddenBit)
      ((bits / hiddenBit : Nat) - 1075) positive := by
  have hidden : 0 < hiddenBit := by decide
  have block : 1 ≤ bits / hiddenBit := (Nat.one_le_div_iff hidden).2 large
  rw [View.unpacked, dif_neg (hidden.trans_le large).ne']
  simp only [fullSignificand, if_neg (Nat.not_lt.2 large), lastPlace, Nat.max_eq_left block]

end Unpacked

section Fields

variable (b : BitVec 64)

theorem ofBitVec_unpackSign :
    Sign.ofBitVec (@unpackSign Format.binary64 b) = signOf (decide (signBit ≤ b.toNat)) := by
  have bit := toNat_unpackSign b
  have range := b.isLt
  have positive : (@unpackSign Format.binary64 b = 0#1) ↔ ¬ signBit ≤ b.toNat := by
    rw [BitVec.toNat_eq, bit, signBit_eq]
    simp
    omega
  simp only [Sign.ofBitVec, signOf, positive, decide_eq_true_eq, ite_not]

theorem exponent_toNat :
    (@unpackExponent Format.binary64 b).toNat = b.toNat % signBit / hiddenBit := by
  rw [toNat_unpackExponent, signBit_eq, hiddenBit_eq]
  omega

theorem mantissa_toNat :
    (@unpackMantissa Format.binary64 b).toNat = b.toNat % signBit % hiddenBit := by
  rw [toNat_unpackMantissa, signBit_eq, hiddenBit_eq]
  omega

/-- The largest exponent is that of infinity and of what is not a number. -/
theorem exponent_eq_ones_iff :
    (@unpackExponent Format.binary64 b = -1#11) ↔ infinityBits ≤ b.toNat % signBit := by
  have ones : (-1#11).toNat = infinityBits / hiddenBit := rfl
  have range : b.toNat % signBit < signBit := Nat.mod_lt _ (by decide)
  rw [BitVec.toNat_eq, exponent_toNat, ones]
  generalize b.toNat % signBit = bits at range ⊢
  rw [infinityBits, hiddenBit_eq]
  rw [signBit_eq] at range
  omega

theorem exponent_eq_zero_iff :
    (@unpackExponent Format.binary64 b = 0#11) ↔ b.toNat % signBit < hiddenBit := by
  rw [BitVec.toNat_eq, exponent_toNat]
  exact Nat.div_eq_zero_iff_lt (by decide)

theorem mantissa_eq_zero_iff :
    (@unpackMantissa Format.binary64 b = 0#52) ↔ b.toNat % signBit % hiddenBit = 0 := by
  rw [BitVec.toNat_eq, mantissa_toNat]
  rfl

theorem toNat_append_hidden (mantissa : BitVec 52) :
    (1#1 ++ mantissa).toNat = hiddenBit + mantissa.toNat := by
  rw [BitVec.toNat_append, show (1#1).toNat = 1 from rfl,
    ← Nat.shiftLeft_add_eq_or_of_lt mantissa.isLt]
  rfl

/-- A pattern is taken apart as its view says. -/
theorem unpack_eq_unpacked : unpack Format.binary64 b = (View.ofBits b.toNat).unpacked := by
  have exponent := exponent_toNat b
  have mantissa := mantissa_toNat b
  have empty := mantissa_eq_zero_iff b
  have bias : (Format.binary64.exponentBias : Int) + Format.binary64.mantissaBitsWithoutImplicit =
    1075 := rfl
  rw [unpack.eq_def, View.ofBits]
  simp only [ofBitVec_unpackSign]
  split
  · next full =>
    have large := (exponent_eq_ones_iff b).1 full
    have infinite : b.toNat % signBit = infinityBits ↔ b.toNat % signBit % hiddenBit = 0 := by
      have range : b.toNat % signBit < signBit := Nat.mod_lt _ (by decide)
      rw [infinityBits, hiddenBit_eq, signBit_eq] at *
      omega
    simp only [if_neg (Nat.not_lt.2 large), infinite, ← mantissa_eq_zero_iff]
    split <;> rfl
  · next notFull =>
    rw [if_pos (Nat.lt_of_not_le (mt (exponent_eq_ones_iff b).2 notFull))]
    split
    · next subnormal =>
      have small := (exponent_eq_zero_iff b).1 subnormal
      rw [Nat.div_eq_of_lt small] at exponent
      rw [Nat.mod_eq_of_lt small] at mantissa empty
      split
      · next zero => rw [empty.1 zero, unpacked_zero]
      · next nonzero =>
        rw [unpacked_subnormal small (Nat.pos_of_ne_zero (mt empty.2 nonzero))]
        simp only [mantissa, exponent, bias, UnpackedFloat.finite.injEq, true_and]
        rfl
    · next normal =>
      have large := Nat.le_of_not_lt (mt (exponent_eq_zero_iff b).2 normal)
      rw [unpacked_normal large (Nat.add_pos_left (by decide) _)]
      simp only [toNat_append_hidden, mantissa, exponent, bias]

end Fields

/-! ## Comparing patterns -/

/-- Patterns count places first, and significands within a place. -/
theorem place_lt_or_significand_lt {a b : Nat} (below : a < b) : lastPlace a < lastPlace b ∨
    lastPlace a = lastPlace b ∧ fullSignificand a < fullSignificand b := by
  have hidden : 0 < hiddenBit := by decide
  have splitA := Nat.div_add_mod' a hiddenBit
  have splitB := Nat.div_add_mod' b hiddenBit
  have restA := Nat.mod_lt a hidden
  have blocks : a / hiddenBit ≤ b / hiddenBit := Nat.div_le_div_right below.le
  have firstBlock (n : Nat) : n < hiddenBit ↔ n / hiddenBit = 0 :=
    (Nat.div_eq_zero_iff_lt hidden).symm
  have smallA := firstBlock a
  simp only [lastPlace, fullSignificand, firstBlock]
  generalize a / hiddenBit = blockA, b / hiddenBit = blockB at *
  obtain rfl | later := Nat.eq_or_lt_of_le blocks
  · refine .inr ⟨rfl, ?_⟩
    split <;> omega
  · by_cases second : blockB = 1
    · -- The second block has the same place as the first one, and larger significands.
      obtain rfl : blockA = 0 := by omega
      subst second
      simp only [if_true, Nat.one_ne_zero, if_false]
      omega
    · omega

theorem compare_place_significand (a b : Nat) :
    (compare (lastPlace a) (lastPlace b)).then (compare (fullSignificand a) (fullSignificand b)) =
      compare a b := by
  have ascending {a b : Nat} (below : a < b) : (compare (lastPlace a) (lastPlace b)).then
      (compare (fullSignificand a) (fullSignificand b)) = .lt := by
    rw [Ordering.then_eq_lt]
    exact (place_lt_or_significand_lt below).imp Int.compare_eq_lt.2
      (And.imp Int.compare_eq_eq.2 Nat.compare_eq_lt.2)
  obtain below | rfl | above := Nat.lt_trichotomy a b
  · rw [ascending below, Nat.compare_eq_lt.2 below]
  · simp
  · rw [Nat.compare_eq_gt.2 above, ← Ordering.swap_lt, ← ascending above, Ordering.swap_then,
      Int.compare_swap, Nat.compare_swap]

/-- The signed pattern of a number. Both zeros have the same. -/
def View.rank? : View → Option Int
  | .nan => none
  | .infinite negative => some (if negative then -infinityBits else infinityBits)
  | .finite negative bits => some (if negative then -bits else bits)

theorem compare_natCast (a b : Nat) : compare (a : Int) b = compare a b := by
  rw [← cmp_eq_compare, ← cmp_eq_compare]
  exact Nat.strictMono_cast.cmp_map_eq a b

theorem compare_neg (a b : Int) : compare (-a) (-b) = compare b a := by
  rw [← cmp_eq_compare, ← cmp_eq_compare]
  exact StrictAnti.cmp_map_eq (fun _ _ => Int.neg_lt_neg) a b

theorem compare_finite (a b : Bool) (bitsA bitsB : Nat) :
    (View.finite a bitsA).unpacked.compare (View.finite b bitsB).unpacked =
      some (compare (if a then -bitsA else bitsA : Int) (if b then -bitsB else bitsB)) := by
  have same := compare_place_significand bitsA bitsB
  rw [View.unpacked, View.unpacked]
  -- Two numbers of one sign are compared by place and significand, all others by their signs.
  cases a <;> cases b <;> split <;> split <;>
    simp [signOf, UnpackedFloat.compare, compare_natCast, compare_neg, Nat.compare_swap,
      @eq_comm _ Ordering.lt, @eq_comm _ Ordering.gt, Int.compare_eq_lt, Int.compare_eq_gt, *] <;>
    omega

theorem compare_infinite (a b : Bool) {bits : Nat} (finite : bits < infinityBits) :
    (View.infinite a).unpacked.compare (View.finite b bits).unpacked =
      some (compare (if a then -infinityBits else infinityBits : Int) (if b then -bits else bits)) := by
  rw [View.unpacked, View.unpacked]
  cases a <;> cases b <;> split <;>
    simp [signOf, UnpackedFloat.compare, @eq_comm _ Ordering.lt, @eq_comm _ Ordering.gt,
      Int.compare_eq_lt, Int.compare_eq_gt] <;>
    omega

theorem compare_finite_infinite (a b : Bool) {bits : Nat} (finite : bits < infinityBits) :
    (View.finite a bits).unpacked.compare (View.infinite b).unpacked =
      some (compare (if a then -bits else bits : Int) (if b then -infinityBits else infinityBits)) := by
  rw [View.unpacked, View.unpacked]
  cases a <;> cases b <;> split <;>
    simp [signOf, UnpackedFloat.compare, @eq_comm _ Ordering.lt, @eq_comm _ Ordering.gt,
      Int.compare_eq_lt, Int.compare_eq_gt] <;>
    omega

variable {x y : Float}

theorem compare_unpack (x y : Float) : x.toModel.unpack.compare y.toModel.unpack =
    Option.map₂ compare (view x).rank? (view y).rank? := by
  have unpacked (z : Float) : z.toModel.unpack = (view z).unpacked :=
    unpack_eq_unpacked z.toBits.toBitVec
  rw [unpacked, unpacked]
  cases viewX : view x with
  | nan => rfl
  | infinite a =>
    cases viewY : view y with
    | nan => cases a <;> rfl
    | infinite b => cases a <;> cases b <;> decide
    | finite b bits => exact compare_infinite a b (finite_of_view viewY)
  | finite a bits =>
    cases viewY : view y with
    | nan =>
      rw [View.unpacked.eq_3]
      split <;> rfl
    | infinite b => exact compare_finite_infinite a b (finite_of_view viewX)
    | finite b other => exact compare_finite a b bits other

theorem beq_iff_compare :
    (x == y) = true ↔ x.toModel.unpack.compare y.toModel.unpack = some .eq := by
  have compared : (x == y) = (x.toModel.unpack.compare y.toModel.unpack == some .eq) := rfl
  rw [compared, beq_iff_eq]

theorem lt_iff_compare : x < y ↔ x.toModel.unpack.compare y.toModel.unpack = some .lt := by
  show Float.lt x y = true ↔ _
  rw [Float.lt, decide_eq_true_eq]
  show Float.Model.lt _ _ = true ↔ _
  rw [Float.Model.lt, UnpackedFloat.lt, beq_iff_eq]

theorem le_iff_compare :
    x ≤ y ↔ (x.toModel.unpack.compare y.toModel.unpack).any Ordering.isLE = true := by
  show Float.le x y = true ↔ _
  rw [Float.le, decide_eq_true_eq]
  exact .rfl

/-- Floats are ordered by their signed patterns. -/
theorem lt_iff_rank : x < y ↔ ∃ a b, a ∈ (view x).rank? ∧ b ∈ (view y).rank? ∧ a < b := by
  rw [lt_iff_compare, compare_unpack, Option.map₂_eq_some_iff]
  simp only [Int.compare_eq_lt]

theorem beq_iff_rank : (x == y) = true ↔ ∃ a, a ∈ (view x).rank? ∧ a ∈ (view y).rank? := by
  rw [beq_iff_compare, compare_unpack, Option.map₂_eq_some_iff]
  simp only [Int.compare_eq_eq]
  constructor
  · rintro ⟨a, _, rankX, rankY, rfl⟩
    exact ⟨a, rankX, rankY⟩
  · rintro ⟨a, rankX, rankY⟩
    exact ⟨a, a, rankX, rankY, rfl⟩

theorem le_iff_rank : x ≤ y ↔ ∃ a b, a ∈ (view x).rank? ∧ b ∈ (view y).rank? ∧ a ≤ b := by
  rw [le_iff_compare, compare_unpack]
  cases (view x).rank? <;> cases (view y).rank? <;> simp [Int.isLE_compare]

theorem isNaN_iff_view : x.isNaN = true ↔ view x = .nan := by
  have unpacked : x.isNaN = (view x).unpacked.isNaN :=
    congrArg UnpackedFloat.isNaN (unpack_eq_unpacked x.toBits.toBitVec)
  rw [unpacked]
  cases view x with
  | nan => simp [View.unpacked, UnpackedFloat.isNaN]
  | infinite negative => simp [View.unpacked, UnpackedFloat.isNaN]
  | finite negative bits =>
    rw [View.unpacked]
    split <;> simp [UnpackedFloat.isNaN]

theorem isInf_iff_view : x.isInf = true ↔ ∃ negative, view x = .infinite negative := by
  have unpacked : x.isInf = (view x).unpacked.isInf :=
    congrArg UnpackedFloat.isInf (unpack_eq_unpacked x.toBits.toBitVec)
  rw [unpacked]
  cases view x with
  | nan => simp [View.unpacked, UnpackedFloat.isInf]
  | infinite negative => simp [View.unpacked, UnpackedFloat.isInf]
  | finite negative bits =>
    rw [View.unpacked]
    split <;> simp [UnpackedFloat.isInf]

theorem not_le_of_lt (above : y < x) : ¬ x ≤ y := by
  obtain ⟨b, a, rankY, rankX, less⟩ := lt_iff_rank.1 above
  rw [le_iff_rank]
  rintro ⟨a', b', rankX', rankY', le⟩
  obtain rfl := Option.mem_unique rankX rankX'
  obtain rfl := Option.mem_unique rankY rankY'
  omega

theorem not_le_of_isNaN (unordered : x.isNaN = true) : ¬ x ≤ y := by
  rw [le_iff_rank, isNaN_iff_view.1 unordered]
  rintro ⟨a, b, rank, -⟩
  cases rank

/-! ## Comparing with whole numbers -/

/-- The number of a finite float. -/
def View.number? : View → Option ℚ
  | .finite negative bits => some (if negative then -magnitude bits else magnitude bits)
  | _ => none

theorem magnitude_zero : magnitude 0 = 0 := by
  simp [magnitude, units, show 0 < hiddenBit by decide]

theorem magnitude_nonneg (bits : Nat) : 0 ≤ magnitude bits :=
  magnitude_zero ▸ magnitude_strictMono.monotone (Nat.zero_le bits)

/-- Patterns and numbers have the same order, with their signs. -/
theorem signed_lt_iff (negative : Bool) (bits other : Nat) :
    (if negative then -bits else bits : Int) < other ↔
      (if negative then -magnitude bits else magnitude bits) < magnitude other := by
  cases negative with
  | false => simp [magnitude_strictMono.lt_iff_lt]
  | true =>
    simp only [if_true]
    obtain rfl | positive := Nat.eq_zero_or_pos bits
    · rw [magnitude_zero, neg_zero, Nat.cast_zero, neg_zero, ← magnitude_zero,
        magnitude_strictMono.lt_iff_lt]
      exact Int.natCast_pos
    · have below : 0 < magnitude bits := magnitude_zero ▸ magnitude_strictMono positive
      have nonneg := magnitude_nonneg other
      exact iff_of_true (by omega) (by linarith)

theorem lt_signed_iff (negative : Bool) (bits other : Nat) :
    (other : Int) < (if negative then -bits else bits : Int) ↔
      magnitude other < (if negative then -magnitude bits else magnitude bits) := by
  cases negative with
  | false => simp [magnitude_strictMono.lt_iff_lt]
  | true =>
    simp only [if_true]
    have nonneg := magnitude_nonneg bits
    have nonneg' := magnitude_nonneg other
    exact iff_of_false (by omega) (by linarith)

section Whole

variable {n : Nat}

/-- Whole numbers of at most 53 binary digits are kept. -/
theorem placeOf_whole (small : n < 2 ^ 53) : placeOf n 1 ≤ unitPlaces := by
  rw [placeOf, Nat.div_one]
  by_cases zero : n * unitsPerOne = 0
  · simp [zero]
  · have below : n * unitsPerOne < 2 ^ (53 + unitPlaces) := by
      rwa [unitsPerOne_eq, Nat.pow_add, Nat.mul_lt_mul_right (Nat.two_pow_pos unitPlaces)]
    have log := (Nat.log2_lt zero).2 below
    omega

theorem nearest_whole_lt (small : n < 2 ^ 53) : nearest n 1 < infinityBits := by
  have place := Nat.mul_le_mul_right hiddenBit (placeOf_whole small)
  have significand := (placed_nearest n 1).upper
  have room : unitPlaces * hiddenBit + 2 * hiddenBit < infinityBits := by decide
  rw [nearest_eq]
  omega

theorem magnitude_nearest (small : n < 2 ^ 53) : magnitude (nearest n 1) = n := by
  have one : (unitsPerOne : ℚ) ≠ 0 := Nat.cast_ne_zero.2 unitsPerOne_pos.ne'
  rw [magnitude, units_nearest (nearest_whole_lt small), significandOf_whole (placeOf_whole small),
    Nat.cast_mul, mul_div_cancel_right₀ _ one]

theorem view_ofInt (small : n < 2 ^ 53) : view (ofInt n) = .finite false (nearest n 1) := by
  have float : ofInt n = (View.finite false (nearest n 1)).toFloat := by simp [ofInt, View.toFloat]
  rw [float, view_toFloat (nearest_whole_lt small)]

theorem number?_ofInt (small : n < 2 ^ 53) : (view (ofInt n)).number? = some (n : ℚ) := by
  rw [view_ofInt small, View.number?, magnitude_nearest small]
  rfl

theorem rank?_ofInt (small : n < 2 ^ 53) : (view (ofInt n)).rank? = some (nearest n 1 : Int) := by
  rw [view_ofInt small]
  rfl

/-- What is smaller than a whole number: the lower infinity and the smaller numbers. -/
theorem lt_ofInt_iff (small : n < 2 ^ 53) :
    x < ofInt n ↔ view x = .infinite true ∨ ∃ q ∈ (view x).number?, q < n := by
  have finite := nearest_whole_lt small
  rw [lt_iff_rank, rank?_ofInt small, ← magnitude_nearest small]
  cases view x with
  | nan => simp [View.rank?, View.number?]
  | infinite negative => cases negative <;> simp [View.rank?, View.number?] <;> omega
  | finite negative bits =>
    simpa [View.rank?, View.number?] using signed_lt_iff negative bits (nearest n 1)

theorem ofInt_lt_iff (small : n < 2 ^ 53) :
    ofInt n < x ↔ view x = .infinite false ∨ ∃ q ∈ (view x).number?, (n : ℚ) < q := by
  have finite := nearest_whole_lt small
  rw [lt_iff_rank, rank?_ofInt small, ← magnitude_nearest small]
  cases view x with
  | nan => simp [View.rank?, View.number?]
  | infinite negative =>
    cases negative
    · simp [View.rank?, View.number?]
      omega
    · simp [View.rank?, View.number?]
  | finite negative bits =>
    simpa [View.rank?, View.number?] using lt_signed_iff negative bits (nearest n 1)

theorem rank?_eq_none_iff {v : View} : v.rank? = none ↔ v = .nan := by
  cases v <;> simp [View.rank?]

theorem le_iff_not_lt (ordered : view x ≠ .nan) (ordered' : view y ≠ .nan) : x ≤ y ↔ ¬ y < x := by
  obtain ⟨a, rankX⟩ := Option.ne_none_iff_exists'.1 (mt rank?_eq_none_iff.1 ordered)
  obtain ⟨b, rankY⟩ := Option.ne_none_iff_exists'.1 (mt rank?_eq_none_iff.1 ordered')
  simp [le_iff_rank, lt_iff_rank, rankX, rankY]

theorem view_ofInt_ne_nan (small : n < 2 ^ 53) : view (ofInt n) ≠ .nan := by
  rw [view_ofInt small]
  simp

theorem le_ofInt_iff (small : n < 2 ^ 53) :
    x ≤ ofInt n ↔ view x = .infinite true ∨ ∃ q ∈ (view x).number?, q ≤ n := by
  by_cases ordered : view x = .nan
  · rw [le_iff_rank, rank?_ofInt small, ordered]
    simp [View.rank?, View.number?]
  · rw [le_iff_not_lt ordered (view_ofInt_ne_nan small), ofInt_lt_iff small]
    generalize view x = v at ordered
    cases v with
    | nan => exact absurd rfl ordered
    | infinite negative => cases negative <;> simp [View.number?]
    | finite negative bits => simp [View.number?]

theorem ofInt_le_iff (small : n < 2 ^ 53) :
    ofInt n ≤ x ↔ view x = .infinite false ∨ ∃ q ∈ (view x).number?, (n : ℚ) ≤ q := by
  by_cases ordered : view x = .nan
  · rw [le_iff_rank, rank?_ofInt small, ordered]
    simp [View.rank?, View.number?]
  · rw [le_iff_not_lt (view_ofInt_ne_nan small) ordered, lt_ofInt_iff small]
    generalize view x = v at ordered
    cases v with
    | nan => exact absurd rfl ordered
    | infinite negative => cases negative <;> simp [View.number?]
    | finite negative bits => simp [View.number?]

theorem ofInt_lt_ofInt {m : Nat} (less : m < n) (small : n < 2 ^ 53) : ofInt m < ofInt n := by
  rw [lt_ofInt_iff small, number?_ofInt (less.trans small)]
  exact .inr ⟨m, rfl, by exact_mod_cast less⟩

theorem ofInt_le_ofInt {m : Nat} (le : m ≤ n) (small : n < 2 ^ 53) : ofInt m ≤ ofInt n := by
  rw [le_ofInt_iff small, number?_ofInt (le.trans_lt small)]
  exact .inr ⟨m, rfl, by exact_mod_cast le⟩

end Whole

/-! ## Integer parts -/

/-- A number without its fraction. -/
def truncate (value : ℚ) : ℤ :=
  if 0 ≤ value then ⌊value⌋ else ⌈value⌉

variable {bits n : Nat} {value : ℚ}

theorem truncate_nonpos (nonpos : value ≤ 0) : truncate value ≤ 0 := by
  rw [truncate]
  split
  · next nonneg =>
    rw [le_antisymm nonpos nonneg, Int.floor_zero]
  · exact Int.ceil_le.2 (by exact_mod_cast nonpos)

theorem truncate_lt_iff (positive : 0 < n) : truncate value < n ↔ value < n := by
  obtain nonpos | above := le_or_gt value 0
  · have small := truncate_nonpos nonpos
    have large : (0 : ℚ) < n := by exact_mod_cast positive
    exact iff_of_true (by omega) (by linarith)
  · rw [truncate, if_pos above.le]
    exact_mod_cast Int.floor_lt

theorem wholePart_eq_truncate (bits : Nat) : (wholePart bits : ℤ) = truncate (magnitude bits) := by
  rw [truncate, if_pos (magnitude_nonneg bits), magnitude, wholePart]
  exact (Rat.floor_natCast_div_natCast _ _).symm

theorem wholePart_lt_iff (positive : 0 < n) : wholePart bits < n ↔ magnitude bits < n := by
  rw [← truncate_lt_iff positive, ← wholePart_eq_truncate, Int.ofNat_lt]

theorem units_le_iff : units bits ≤ n * unitsPerOne ↔ magnitude bits ≤ n := by
  rw [magnitude, div_le_iff₀ (by exact_mod_cast unitsPerOne_pos)]
  exact_mod_cast Iff.rfl

end Reckoner.Binary64
