import Reckoner.Plugin.Runnable
import Reckoner.Proofs.Ordering
import Reckoner.Proofs.Searches

/-! # Functions of primes

The functions answer for floats what the searches find for whole numbers.  Their guards are comparisons
of floats (`belowNextPrimeLimit_iff`, `withinNthPrimeLimit_iff`), and below the limits the integer part
of an argument, the found prime and everything in between fit into their words, so nothing is
rounded and nothing overflows (`primeAfter_isLeast`, `primeAt_enumerates`).
-/

namespace Reckoner.Library

open Binary64 (le_ofInt_iff lt_ofInt_iff magnitude magnitude_nonneg not_le_of_isNaN not_le_of_lt
  number?_ofInt ofInt ofInt_le_iff ofInt_le_ofInt ofInt_lt_ofInt truncate truncate_lt_iff
  truncate_nonpos units_le_iff view wholePart_eq_truncate wholePart_lt_iff)
open Nat (primeCounting)
open Plugin (Runnable)

variable {x : Float} {value : ℚ} {n : Nat}

/-! ## Arguments -/

theorem wholeOf_eq (number : (view x).number? = some value) :
    (wholeOf x : ℤ) = max 0 (truncate value) := by
  rw [wholeOf]
  cases viewX : view x with
  | nan => simp [viewX, Binary64.View.number?] at number
  | infinite negative => simp [viewX, Binary64.View.number?] at number
  | finite negative bits =>
    rw [viewX, Binary64.View.number?, Option.some_inj] at number
    cases negative with
    | false =>
      obtain rfl : magnitude bits = value := number
      have nonneg : 0 ≤ (Binary64.wholePart bits : ℤ) := Int.natCast_nonneg _
      rw [wholePart_eq_truncate] at nonneg
      rw [max_eq_right nonneg, wholePart_eq_truncate]
    | true =>
      obtain rfl : -magnitude bits = value := number
      have nonpos : -magnitude bits ≤ 0 := neg_nonpos.2 (magnitude_nonneg bits)
      rw [max_eq_left (truncate_nonpos nonpos)]
      rfl

theorem wholeOf_eq_zero (none : (view x).number? = none) : wholeOf x = 0 := by
  rw [wholeOf]
  cases viewX : view x with
  | nan => rfl
  | infinite negative => rfl
  | finite negative bits => simp [viewX, Binary64.View.number?] at none

theorem ofInt_one : ofInt (1 : ℕ) = 1 := by decide +kernel

theorem ofInt_nextPrimeLimit : ofInt nextPrimeLimit = 2147483647 := by decide +kernel

theorem ofInt_nthPrimeLimit : ofInt nthPrimeLimit = 100000 := by decide +kernel

/-- The next prime is defined below the limit, as floats compare. -/
theorem belowNextPrimeLimit_iff : belowNextPrimeLimit x = true ↔ x < 2147483647 := by
  have positive : 0 < nextPrimeLimit := by decide
  rw [← ofInt_nextPrimeLimit, lt_ofInt_iff (by decide), belowNextPrimeLimit]
  cases view x with
  | nan => simp [Binary64.View.number?]
  | infinite negative => simp [Binary64.View.number?]
  | finite negative bits =>
    cases negative with
    | false => simp [Binary64.View.number?, wholePart_lt_iff positive]
    | true =>
      have below : -magnitude bits < nextPrimeLimit :=
        (neg_nonpos.2 (magnitude_nonneg bits)).trans_lt (by exact_mod_cast positive)
      simp [Binary64.View.number?, below]

theorem withinNthPrimeLimit_iff : withinNthPrimeLimit x = true ↔ x ≤ 100000 := by
  rw [← ofInt_nthPrimeLimit, le_ofInt_iff (by decide), withinNthPrimeLimit]
  cases view x with
  | nan => simp [Binary64.View.number?]
  | infinite negative => simp [Binary64.View.number?]
  | finite negative bits =>
    cases negative with
    | false => simp [Binary64.View.number?, units_le_iff]
    | true =>
      have within : -magnitude bits ≤ nthPrimeLimit :=
        (neg_nonpos.2 (magnitude_nonneg bits)).trans (Nat.cast_nonneg _)
      simp [Binary64.View.number?, within]

theorem wholeOf_lt_iff (number : (view x).number? = some value) (positive : 0 < n) :
    wholeOf x < n ↔ value < n := by
  rw [← truncate_lt_iff positive, ← Int.ofNat_lt, wholeOf_eq number]
  omega

theorem wholeOf_lt (positive : 0 < n) (small : n < 2 ^ 53) (below : x < ofInt n) : wholeOf x < n := by
  obtain infinite | ⟨value, number, less⟩ := (lt_ofInt_iff small).1 below
  · rwa [wholeOf_eq_zero (by rw [infinite]; rfl)]
  · exact (wholeOf_lt_iff number positive).2 less

theorem wholeOf_le (small : n + 1 < 2 ^ 53) (within : x ≤ ofInt n) : wholeOf x ≤ n := by
  obtain infinite | ⟨value, number, le⟩ := (le_ofInt_iff (Nat.lt_of_succ_lt small)).1 within
  · rw [wholeOf_eq_zero (by rw [infinite]; rfl)]
    exact Nat.zero_le n
  · have less : value < (n + 1 : ℕ) := le.trans_lt (by exact_mod_cast Nat.lt_succ_self n)
    exact Nat.le_of_lt_succ ((wholeOf_lt_iff number (Nat.succ_pos n)).2 less)

theorem wholeOf_ofInt (small : n < 2 ^ 53) : wholeOf (ofInt n) = n := by
  have whole := wholeOf_eq (number?_ofInt small)
  rw [truncate, if_pos (Nat.cast_nonneg n), Int.floor_natCast] at whole
  omega

/-! ## The next prime -/

/-- The primes above the integer part of a float. Above the lower infinity these are all primes. -/
def primesAbove (x : Float) : Set ℕ :=
  {p | p.Prime ∧ ∀ value ∈ (view x).number?, truncate value < p}

/-- Where the search for the next prime starts: behind the integer part, but not in front of 2. -/
def searchStart (x : Float) : ℤ :=
  match (view x).number? with
  | some value => max 2 (truncate value + 1)
  | none => 2

theorem primesAbove_eq (x : Float) : primesAbove x = {p | p.Prime ∧ wholeOf x < p} := by
  ext p
  refine and_congr_right fun prime => ?_
  have positive := prime.pos
  cases number : (view x).number? with
  | none => simp [wholeOf_eq_zero number, positive]
  | some value =>
    have whole := wholeOf_eq number
    simp only [Option.mem_def, Option.some_inj, forall_eq']
    omega

theorem searchStart_eq (x : Float) : searchStart x = max 2 (wholeOf x + 1 : ℤ) := by
  rw [searchStart]
  cases number : (view x).number? with
  | none => simp [wholeOf_eq_zero number]
  | some value =>
    simp only [wholeOf_eq number]
    omega

/-- The search starts in front of the same primes. -/
theorem primesAbove_eq_of_start {start : UInt64} (value : (start.toNat : ℤ) = searchStart x) :
    primesAbove x = {p | p.Prime ∧ start.toNat ≤ p} := by
  rw [primesAbove_eq]
  ext p
  refine and_congr_right fun prime => ?_
  have two := prime.two_le
  rw [searchStart_eq] at value
  omega

theorem isLeast_primesAbove (x : Float) : IsLeast (primesAbove x) (nextPrime (wholeOf x)) :=
  primesAbove_eq x ▸ isLeast_nextPrime (wholeOf x)

theorem body_primeAfter (below : x < 2147483647) :
    primeAfter.body [x] = .returned (ofInt (nextPrime (wholeOf x))) := by
  simp only [primeAfter, belowNextPrimeLimit_iff.2 below, if_true]

theorem body_primeAfter_ofInt (below : n < nextPrimeLimit) :
    primeAfter.body [ofInt n] = .returned (ofInt (nextPrime n)) := by
  have limit : nextPrimeLimit < 2 ^ 53 := by decide
  rw [body_primeAfter (ofInt_nextPrimeLimit ▸ ofInt_lt_ofInt below limit),
    wholeOf_ofInt (below.trans limit)]

/-- The next prime of a float is the least one above its integer part. -/
theorem primeAfter_isLeast :
    (∀ x : Float, x < 2147483647 → ∃ p : ℕ, primeAfter.body [x] = .returned (ofInt p) ∧
      IsLeast (primesAbove x) p ∧ (x < 2 → p = 2) ∧
      p ≤ 2147483647 ∧ (view (ofInt p)).number? = some (p : ℚ) ∧
      ∃ start : UInt64, (start.toNat : ℤ) = searchStart x ∧
        ∀ result, Words.Search start result ↔ result.toNat = p) ∧
    ∀ x : Float, ¬ x < 2147483647 → primeAfter.body [x] =
      .failed (.invocationFailure "NPrime" "argument must be below 2147483647") := by
  have two : ofInt (2 : ℕ) = 2 := by decide +kernel
  constructor
  · intro x below
    have whole : wholeOf x < nextPrimeLimit :=
      wholeOf_lt (by decide) (by decide) (ofInt_nextPrimeLimit ▸ below)
    have bounded : nextPrime (wholeOf x) ≤ nextPrimeLimit := nextPrime_le whole
    have limit : nextPrimeLimit < 2 ^ 31 := by decide
    have least := isLeast_primesAbove x
    obtain ⟨start, value⟩ := Words.exists_word (show max 2 (wholeOf x + 1) < 2 ^ 64 by omega)
    have starts : (start.toNat : ℤ) = searchStart x := by
      rw [searchStart_eq, value]
      omega
    refine ⟨nextPrime (wholeOf x), body_primeAfter below, least, ?_, bounded,
      number?_ofInt (by omega), start, starts, ?_⟩
    · intro small
      exact nextPrime_of_lt_two (wholeOf_lt Nat.two_pos (by decide) (two ▸ small))
    · intro result
      rw [primesAbove_eq_of_start starts] at least
      exact Words.search_iff (by omega) least
  · intro x above
    have refused : belowNextPrimeLimit x = false :=
      Bool.eq_false_iff.2 (mt belowNextPrimeLimit_iff.1 above)
    have text : toString nextPrimeLimit = "2147483647" := by decide +kernel
    simp only [primeAfter, refused, text]
    rfl

/-- The next primes of a fraction and of the lower infinity, and none of what is not a number. -/
theorem primeAfter_isLeast_fraction :
    (13.9 : Float) < 2147483647 ∧ primeAfter.body [13.9] = .returned (ofInt (17 : ℕ)) ∧
      (-1 / 0 : Float) < 2147483647 ∧ (-1 / 0 : Float) < 2 ∧
      primeAfter.body [-1 / 0] = .returned (ofInt (2 : ℕ)) ∧
      ¬ (0 / 0 : Float) < 2147483647 ∧ primeAfter.body [0 / 0] =
        .failed (.invocationFailure "NPrime" "argument must be below 2147483647") := by
  obtain ⟨primes, refusals⟩ := primeAfter_isLeast
  have fraction : (13.9 : Float) < 2147483647 := by decide +kernel
  have infinite : (-1 / 0 : Float) < 2147483647 := by decide +kernel
  have small : (-1 / 0 : Float) < 2 := by decide +kernel
  have unordered : ¬ (0 / 0 : Float) < 2147483647 := by decide +kernel
  obtain ⟨p, answer, least, -⟩ := primes 13.9 fraction
  obtain ⟨q, answer', -, first, -⟩ := primes (-1 / 0) infinite
  have seventeen : IsLeast (primesAbove 13.9) 17 := by
    have whole : wholeOf 13.9 = 13 := by decide +kernel
    rw [primesAbove_eq, whole]
    refine ⟨⟨by norm_num, by decide⟩, fun q ⟨prime, above⟩ => ?_⟩
    by_contra below
    interval_cases q <;> norm_num at prime
  rw [least.unique seventeen] at answer
  rw [first small] at answer'
  exact ⟨fraction, answer, infinite, small, answer', unordered, refusals _ unordered⟩

/-! ## The prime at a place -/

theorem invoke_primeAt {plugin : Runnable} (made : Runnable.ofPlugin primeAt = .ok plugin)
    (x : Float) : plugin.invoke [x] = if withinNthPrimeLimit x then
        .ok (ofInt (Int64.ofNat (nthPrime (max 1 (wholeOf x)))).toInt)
      else .error (.invocationFailure "nthprime" ("n must be at most " ++ toString nthPrimeLimit)) := by
  cases made
  by_cases within : withinNthPrimeLimit x = true
  · simp [Runnable.invoke, Runnable.arity, within, Value.toNumber, Value.asNumber?]
  · simp [Runnable.invoke, Runnable.arity, within]
    rfl

theorem invoke_primeAt_of_le {plugin : Runnable} (made : Runnable.ofPlugin primeAt = .ok plugin)
    (within : x ≤ 100000) :
    plugin.invoke [x] = .ok (ofInt (nthPrime (max 1 (wholeOf x)) : ℕ)) := by
  have whole : wholeOf x ≤ nthPrimeLimit := wholeOf_le (by decide) (ofInt_nthPrimeLimit ▸ within)
  have first : 1 ≤ nthPrimeLimit := by decide
  have bound := nthPrime_le (Nat.max_le.2 ⟨first, whole⟩)
  rw [invoke_primeAt made, if_pos (withinNthPrimeLimit_iff.2 within),
    Int64.toInt_ofNat_of_lt (by omega)]

theorem invoke_primeAt_of_not_le {plugin : Runnable} (made : Runnable.ofPlugin primeAt = .ok plugin)
    (beyond : ¬ x ≤ 100000) : plugin.invoke [x] =
      .error (.invocationFailure "nthprime" "n must be at most 100000") := by
  have text : toString nthPrimeLimit = "100000" := by decide +kernel
  rw [invoke_primeAt made, if_neg (mt withinNthPrimeLimit_iff.1 beyond), text]
  rfl

theorem invoke_primeAt_ofInt {plugin : Runnable} (made : Runnable.ofPlugin primeAt = .ok plugin)
    (first : 1 ≤ n) (last : n ≤ nthPrimeLimit) :
    plugin.invoke [ofInt n] = .ok (ofInt (nthPrime n)) := by
  have limit : nthPrimeLimit < 2 ^ 53 := by decide
  have within : ofInt n ≤ 100000 := ofInt_nthPrimeLimit ▸ ofInt_le_ofInt last limit
  rw [invoke_primeAt_of_le made within, wholeOf_ofInt (last.trans_lt limit), Nat.max_eq_right first]

theorem wholeOf_of_lt_one (before : x < 1) : x ≤ 100000 ∧ wholeOf x = 0 := by
  rw [← ofInt_one] at before
  rw [← ofInt_nthPrimeLimit, le_ofInt_iff (by decide)]
  have whole : wholeOf x < 1 := wholeOf_lt Nat.one_pos (by decide) before
  refine ⟨((lt_ofInt_iff (by decide)).1 before).imp_right ?_, Nat.lt_one_iff.1 whole⟩
  rintro ⟨value, number, small⟩
  have limit : ((1 : ℕ) : ℚ) ≤ nthPrimeLimit := by exact_mod_cast (by decide : 1 ≤ nthPrimeLimit)
  exact ⟨value, number, small.le.trans limit⟩

/-- A place in the sequence is a whole number at least one, once its fraction is cut off. -/
theorem exists_place (first : 1 ≤ x) (last : x ≤ 100000) : ∃ value, (view x).number? = some value ∧
    truncate value = wholeOf x ∧ 0 < wholeOf x ∧ wholeOf x ≤ nthPrimeLimit := by
  have bound : wholeOf x ≤ nthPrimeLimit := wholeOf_le (by decide) (ofInt_nthPrimeLimit ▸ last)
  rw [← ofInt_one, ofInt_le_iff (by decide)] at first
  rw [← ofInt_nthPrimeLimit, le_ofInt_iff (by decide)] at last
  obtain infinite | ⟨value, number, large⟩ := first
  · simp [infinite, Binary64.View.number?] at last
  · have positive : 0 < wholeOf x := by
      by_contra none
      have small := (wholeOf_lt_iff number Nat.one_pos).1 (by omega)
      exact absurd large (not_le_of_gt small)
    have whole := wholeOf_eq number
    exact ⟨value, number, by omega, positive, bound⟩

/-- The prime at a place of the sequence has that many primes up to it. -/
theorem primeAt_enumerates : ∃ plugin, Runnable.ofPlugin primeAt = .ok plugin ∧
    (∀ x : Float, 1 ≤ x → x ≤ 100000 → ∃ value, (view x).number? = some value ∧
      ∃ p : ℕ, plugin.invoke [x] = .ok (ofInt p) ∧ (view (ofInt p)).number? = some (p : ℚ) ∧
        p.Prime ∧ (primeCounting p : ℤ) = truncate value ∧
        ∃ target : UInt64, (target.toNat : ℤ) = truncate value ∧
          ∀ result, Words.Counting target 0 1 result ↔ result.toNat = p) ∧
    (∀ x : Float, x < 1 → plugin.invoke [x] = .ok (ofInt 2)) ∧
    (∀ x : Float, x.isNaN = true ∨ 100000 < x → plugin.invoke [x] =
      .error (.invocationFailure "nthprime" "n must be at most 100000")) ∧
    ∀ n : ℕ, 1 ≤ n → n < 100000 → ∃ p q, plugin.invoke [ofInt n] = .ok p ∧
      primeAfter.body [p] = .returned q ∧ plugin.invoke [ofInt (n + 1 : ℕ)] = .ok q := by
  obtain ⟨plugin, made⟩ : ∃ plugin, Runnable.ofPlugin primeAt = .ok plugin := ⟨_, rfl⟩
  refine ⟨plugin, made, ?_, ?_, ?_, ?_⟩
  · intro x first last
    obtain ⟨value, number, whole, positive, bound⟩ := exists_place first last
    have answer := invoke_primeAt_of_le made last
    rw [Nat.max_eq_right positive] at answer
    obtain ⟨prime, place⟩ := prime_nthPrime positive
    have small := nthPrime_le bound
    have limit : nthPrimeLimit < 2 ^ 64 := by decide
    obtain ⟨target, targeted⟩ := Words.exists_word (bound.trans_lt limit)
    refine ⟨value, number, nthPrime (wholeOf x), answer, number?_ofInt (by omega), prime, ?_,
      target, ?_, ?_⟩
    · rw [place, whole]
    · rw [targeted, whole]
    · intro result
      rw [← targeted] at small positive ⊢
      exact Words.counting_iff positive (by omega)
  · intro x before
    obtain ⟨within, whole⟩ := wholeOf_of_lt_one before
    rw [invoke_primeAt_of_le made within, whole, Nat.max_eq_left (Nat.zero_le 1), nthPrime_succ,
      Nat.nth_prime_zero_eq_two]
    rfl
  · rintro x (unordered | above)
    · exact invoke_primeAt_of_not_le made (not_le_of_isNaN unordered)
    · exact invoke_primeAt_of_not_le made (not_le_of_lt above)
  · intro n first last
    have limit : 2 ^ 22 < nextPrimeLimit := by decide
    have below : nthPrime n < nextPrimeLimit := (nthPrime_le last.le).trans_lt limit
    refine ⟨_, _, invoke_primeAt_ofInt made first last.le, body_primeAfter_ofInt below, ?_⟩
    rw [nextPrime_nthPrime]
    exact invoke_primeAt_ofInt made (Nat.succ_pos n) last

/-- The fourth prime, asked for by a fraction; what stands before the first place, past the last one
or at none at all; and the way from the third prime to the fourth. -/
theorem primeAt_enumerates_fraction : ∃ plugin, Runnable.ofPlugin primeAt = .ok plugin ∧
    (1 : Float) ≤ 4.5 ∧ (4.5 : Float) ≤ 100000 ∧ plugin.invoke [4.5] = .ok (ofInt (7 : ℕ)) ∧
    (-3 : Float) < 1 ∧ plugin.invoke [-3] = .ok (ofInt 2) ∧
    (0 / 0 : Float).isNaN = true ∧ plugin.invoke [0 / 0] =
      .error (.invocationFailure "nthprime" "n must be at most 100000") ∧
    (100000 : Float) < 100000.5 ∧ plugin.invoke [100000.5] =
      .error (.invocationFailure "nthprime" "n must be at most 100000") ∧
    ∃ p q, plugin.invoke [ofInt (3 : ℕ)] = .ok p ∧ primeAfter.body [p] = .returned q ∧
      plugin.invoke [ofInt (4 : ℕ)] = .ok q := by
  obtain ⟨plugin, made, places, before, refusals, steps⟩ := primeAt_enumerates
  have first : (1 : Float) ≤ 4.5 := by decide +kernel
  have last : (4.5 : Float) ≤ 100000 := by decide +kernel
  have negative : (-3 : Float) < 1 := by decide +kernel
  have unordered : (0 / 0 : Float).isNaN = true := by decide +kernel
  have above : (100000 : Float) < 100000.5 := by decide +kernel
  obtain ⟨value, number, p, answer, -, prime, place, -⟩ := places 4.5 first last
  have whole : wholeOf 4.5 = 4 := by decide +kernel
  have seven : p = 7 := by
    have fourth : primeCounting 7 = 4 := by decide +kernel
    have counted : primeCounting p = 4 := by
      have := wholeOf_eq number
      omega
    rw [eq_nthPrime prime counted, ← eq_nthPrime (by norm_num) fourth]
  rw [seven] at answer
  exact ⟨plugin, made, first, last, answer, negative, before _ negative, unordered,
    refusals _ (.inl unordered), above, refusals _ (.inr above), steps 3 (by decide) (by decide)⟩

end Reckoner.Library
