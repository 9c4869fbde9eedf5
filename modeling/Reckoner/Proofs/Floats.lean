import Mathlib
import Reckoner.Number.Literal

/-! # Floats and their patterns

A float is determined by its view (`toFloat_view`): what is not a number has one pattern only, and the
pattern of a negative float is that of its magnitude with the sign on top.
-/

namespace Reckoner.Binary64

open Float.Model (Format UnpackedFloat)
open Float.Model.UnpackedFloat (isNaNBits pack pack_unpack pack_unpack_of_valid unpack unpackExponent
  unpackMantissa unpackSign)

theorem signBit_eq : signBit = 2 ^ 63 := rfl

/-! ## Fields of a pattern -/

theorem toNat_unpackExponent (b : BitVec 64) :
    (@unpackExponent Format.binary64 b).toNat = b.toNat / 2 ^ 52 % 2 ^ 11 := by
  rw [UnpackedFloat.unpackExponent_def, BitVec.extractLsb'_toNat, Nat.shiftRight_eq_div_pow]

theorem toNat_unpackMantissa (b : BitVec 64) :
    (@unpackMantissa Format.binary64 b).toNat = b.toNat % 2 ^ 52 := by
  rw [UnpackedFloat.unpackMantissa_def, BitVec.extractLsb'_toNat, Nat.shiftRight_zero]

theorem toNat_unpackSign (b : BitVec 64) :
    (@unpackSign Format.binary64 b).toNat = b.toNat / 2 ^ 63 % 2 := by
  rw [UnpackedFloat.unpackSign_def, BitVec.extractLsb'_toNat, Nat.shiftRight_eq_div_pow]
  rfl

theorem isNaNBits_iff (b : BitVec 64) :
    @isNaNBits Format.binary64 b = true ↔ infinityBits < b.toNat % signBit := by
  have ones : (-1#11).toNat = 2047 := rfl
  have zero : (0#52).toNat = 0 := rfl
  rw [isNaNBits, decide_eq_true_eq, Ne, BitVec.toNat_eq, BitVec.toNat_eq, toNat_unpackExponent,
    toNat_unpackMantissa, ones, zero, infinityBits, signBit_eq]
  omega

/-- The sign of a pattern is apart from the rest of it. -/
theorem neg_unpack {a b : BitVec 64} (below : a.toNat < signBit)
    (above : b.toNat = signBit + a.toNat) :
    (unpack Format.binary64 a).neg = unpack Format.binary64 b := by
  rw [signBit_eq] at below above
  have exponent : @unpackExponent Format.binary64 b =
      @unpackExponent Format.binary64 a := by
    rw [BitVec.toNat_eq, toNat_unpackExponent, toNat_unpackExponent]
    omega
  have mantissa : @unpackMantissa Format.binary64 b =
      @unpackMantissa Format.binary64 a := by
    rw [BitVec.toNat_eq, toNat_unpackMantissa, toNat_unpackMantissa]
    omega
  have positive : @unpackSign Format.binary64 a = 0#1 := by
    rw [BitVec.toNat_eq, toNat_unpackSign]
    simp
    omega
  have negative : @unpackSign Format.binary64 b = 1#1 := by
    rw [BitVec.toNat_eq, toNat_unpackSign]
    simp
    omega
  rw [unpack.eq_def, unpack.eq_def]
  simp only [exponent, mantissa, positive, negative]
  split
  · split <;> rfl
  · split
    · split <;> rfl
    · rfl

/-! ## Floats -/

/-- A pattern that is a number is kept. -/
theorem toNat_toBits_ofBits {pattern : Nat} (range : pattern < 2 * signBit)
    (ordered : pattern % signBit ≤ infinityBits) :
    (Float.ofBits (UInt64.ofNat pattern)).toBits.toBitVec.toNat = pattern := by
  have fits : (UInt64.ofNat pattern).toBitVec.toNat = pattern := Nat.mod_eq_of_lt range
  have number : @isNaNBits Format.binary64 (UInt64.ofNat pattern).toBitVec = false := by
    rw [Bool.eq_false_iff, Ne, isNaNBits_iff, fits]
    exact Nat.not_lt.2 ordered
  have kept : (Float.ofBits (UInt64.ofNat pattern)).toBits.toBitVec =
      pack Format.binary64 (unpack Format.binary64 (UInt64.ofNat pattern).toBitVec) := rfl
  rw [kept, pack_unpack, number]
  exact fits

theorem toNat_toBits_ofMagnitude {bits : Nat} (ordered : bits ≤ infinityBits) :
    (ofMagnitude bits).toBits.toBitVec.toNat = bits := by
  have range : infinityBits < 2 * signBit := by decide
  exact toNat_toBits_ofBits (by omega) ((Nat.mod_le bits signBit).trans ordered)

theorem eq_of_toNat_toBits {x y : Float}
    (same : x.toBits.toBitVec.toNat = y.toBits.toBitVec.toNat) : x = y :=
  Float.toBits_inj.1 (UInt64.toBitVec_inj.1 (BitVec.toNat_eq.2 same))

/-- A pattern with the sign on top is that of the negated magnitude. -/
theorem neg_ofMagnitude {x : Float} {bits : Nat} (ordered : bits ≤ infinityBits)
    (pattern : x.toBits.toBitVec.toNat = signBit + bits) : x = -ofMagnitude bits := by
  have magnitude := toNat_toBits_ofMagnitude ordered
  have below : bits < signBit := Nat.lt_of_le_of_lt ordered (by decide)
  -- Negation unpacks, flips the sign and packs again.
  have negated : (-ofMagnitude bits).toBits.toBitVec = pack Format.binary64
      (unpack Format.binary64 (ofMagnitude bits).toBits.toBitVec).neg := rfl
  have flipped := neg_unpack (by rwa [magnitude]) (by rw [pattern, magnitude])
  apply eq_of_toNat_toBits
  rw [negated, flipped]
  exact congrArg BitVec.toNat (pack_unpack_of_valid x.toModel.valid).symm

/-- The sign of a negated magnitude stands on top of its pattern. -/
theorem toNat_toBits_neg_ofMagnitude {bits : Nat} (ordered : bits ≤ infinityBits) :
    (-ofMagnitude bits).toBits.toBitVec.toNat = signBit + bits := by
  have below : infinityBits < signBit := by decide
  have rest : (signBit + bits) % signBit = bits := by
    rw [Nat.add_mod_left, Nat.mod_eq_of_lt (by omega)]
  have pattern := @toNat_toBits_ofBits (signBit + bits) (by omega) (by rwa [rest])
  rwa [neg_ofMagnitude ordered pattern] at pattern

/-- There is one pattern that is no number. -/
theorem eq_nan {x : Float} (pattern : infinityBits < x.toBits.toBitVec.toNat % signBit) :
    x = Literal.nan := by
  have kept : pack Format.binary64 (unpack Format.binary64 x.toBits.toBitVec) =
      x.toBits.toBitVec := pack_unpack_of_valid x.toModel.valid
  rw [pack_unpack, if_pos ((isNaNBits_iff _).2 pattern)] at kept
  have packed : Literal.nan.toBits.toBitVec = UnpackedFloat.packedNaN Format.binary64 := by
    decide +kernel
  apply eq_of_toNat_toBits
  rw [packed, kept]

/-- The float of a view. -/
def View.toFloat : View → Float
  | .nan => Literal.nan
  | .infinite negative => if negative then -Literal.infinity else Literal.infinity
  | .finite negative magnitude =>
    if negative then -ofMagnitude magnitude else ofMagnitude magnitude

/-- The float whose magnitude is at most infinity. -/
theorem eq_ofMagnitude {x : Float} (ordered : x.toBits.toNat % signBit ≤ infinityBits) :
    x = if signBit ≤ x.toBits.toNat then -ofMagnitude (x.toBits.toNat % signBit)
      else ofMagnitude (x.toBits.toNat % signBit) := by
  have pattern : x.toBits.toBitVec.toNat = x.toBits.toNat := rfl
  have range : x.toBits.toNat < 2 * signBit := x.toBits.toBitVec.isLt
  split
  · next negative =>
    apply neg_ofMagnitude ordered
    rw [pattern, Nat.mod_eq_sub_mod negative, Nat.mod_eq_of_lt (by omega)]
    omega
  · next positive =>
    apply eq_of_toNat_toBits
    rw [toNat_toBits_ofMagnitude ordered, pattern, Nat.mod_eq_of_lt (Nat.lt_of_not_le positive)]

/-- A float is determined by its view. -/
theorem toFloat_view (x : Float) : (view x).toFloat = x := by
  rw [view, View.ofBits]
  split
  · next finite =>
    simpa [View.toFloat] using (eq_ofMagnitude (Nat.le_of_lt finite)).symm
  · split
    · next infinite =>
      have signed := eq_ofMagnitude (Nat.le_of_eq infinite)
      rw [infinite] at signed
      simpa [View.toFloat, Literal.infinity] using signed.symm
    · next finite infinite =>
      exact (eq_nan (show infinityBits < x.toBits.toNat % signBit by omega)).symm

theorem view_toFloat {bits : Nat} (finite : bits < infinityBits) (negative : Bool) :
    view (View.finite negative bits).toFloat = .finite negative bits := by
  have below : bits < signBit := finite.trans (by decide)
  have ordered := Nat.le_of_lt finite
  cases negative with
  | false =>
    have pattern : (ofMagnitude bits).toBits.toNat = bits := toNat_toBits_ofMagnitude ordered
    simp [view, View.ofBits, View.toFloat, pattern, Nat.mod_eq_of_lt below, finite,
      Nat.not_le.2 below]
  | true =>
    have pattern : (-ofMagnitude bits).toBits.toNat = signBit + bits :=
      toNat_toBits_neg_ofMagnitude ordered
    simp [view, View.ofBits, View.toFloat, pattern, Nat.mod_eq_of_lt below, finite]

theorem finite_of_view {x : Float} {negative : Bool} {magnitude : Nat}
    (finite : view x = .finite negative magnitude) : magnitude < infinityBits := by
  rw [view, View.ofBits] at finite
  split at finite
  · next below =>
    cases finite
    exact below
  · split at finite <;> cases finite

end Reckoner.Binary64
