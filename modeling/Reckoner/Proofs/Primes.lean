import Mathlib.NumberTheory.Bertrand
import Mathlib.NumberTheory.Chebyshev
import Mathlib.NumberTheory.LucasLehmer
import Mathlib.NumberTheory.PrimeCounting
import Reckoner.Library.Primes

/-! # Primes

Trial division decides primality (`isPrime_iff`), and since there is a prime above every number and
not above its double, `nextPrime` finds the least one above (`isLeast_nextPrime`).  So from one prime
it leads to the next one without a gap, and `nthPrime` counts through all of them (`nthPrime_succ`).
-/

namespace Reckoner.Library

open Nat (nth primeCounting)

/-! ## Trial division -/

theorem noDivisorFrom_iff (n d : Nat) :
    noDivisorFrom n d = true ↔ ∀ m, d ≤ m → m * m ≤ n → ¬ m ∣ n := by
  induction d using noDivisorFrom.induct n with
  | case1 d past =>
    rw [noDivisorFrom, if_pos past]
    refine iff_of_true rfl fun m above within => ?_
    exact absurd (Nat.mul_le_mul above above) (by omega)
  | case2 d within divides =>
    rw [noDivisorFrom, if_neg within, if_pos divides]
    refine iff_of_false Bool.false_ne_true fun none => ?_
    exact none d le_rfl (Nat.le_of_not_lt within) (Nat.dvd_of_mod_eq_zero divides)
  | case3 d within rest ih =>
    rw [noDivisorFrom, if_neg within, if_neg rest, ih]
    refine forall_congr' fun m => ⟨fun later above => ?_, fun all above => all (by omega)⟩
    obtain rfl | beyond := Nat.eq_or_lt_of_le above
    · exact fun _ divides => rest (Nat.mod_eq_zero_of_dvd divides)
    · exact later beyond

theorem isPrime_iff {n : Nat} : isPrime n = true ↔ n.Prime := by
  simp only [isPrime, Bool.and_eq_true, decide_eq_true_eq, noDivisorFrom_iff, Nat.prime_def_le_sqrt,
    Nat.le_sqrt]

/-! ## The next prime -/

theorem isLeast_firstPrime {steps n p : Nat} (prime : p.Prime) (above : n ≤ p)
    (within : p < n + steps) : IsLeast {q | q.Prime ∧ n ≤ q} (firstPrime steps n) := by
  induction steps generalizing n with
  | zero => omega
  | succ steps ih =>
    rw [firstPrime]
    split
    · next found => exact ⟨⟨isPrime_iff.1 found, le_rfl⟩, fun q member => member.2⟩
    · next other =>
      have later {q : Nat} (primeQ : q.Prime) (aboveQ : n ≤ q) : n + 1 ≤ q := by
        refine Nat.lt_of_le_of_ne aboveQ ?_
        rintro rfl
        exact other (isPrime_iff.2 primeQ)
      obtain ⟨⟨found, beyond⟩, least⟩ := ih (later prime above) (by omega)
      exact ⟨⟨found, Nat.le_of_succ_le beyond⟩,
        fun q member => least ⟨member.1, later member.1 member.2⟩⟩

/-- The next prime is the least one above. -/
theorem isLeast_nextPrime (n : Nat) : IsLeast {q | q.Prime ∧ n < q} (nextPrime n) := by
  obtain rfl | positive := Nat.eq_zero_or_pos n
  · exact isLeast_firstPrime Nat.prime_two (by omega) (by omega)
  · obtain ⟨p, prime, above, within⟩ := Nat.exists_prime_lt_and_le_two_mul n positive.ne'
    exact isLeast_firstPrime prime above (by omega)

theorem nextPrime_of_lt_two {n : Nat} (small : n < 2) : nextPrime n = 2 :=
  (isLeast_nextPrime n).unique ⟨⟨Nat.prime_two, small⟩, fun _ member => member.1.two_le⟩

/-! ## All primes in order -/

theorem nextPrime_nth (k : Nat) : nextPrime (nth Nat.Prime k) = nth Nat.Prime (k + 1) := by
  refine (isLeast_nextPrime _).unique ⟨⟨Nat.prime_nth_prime _, ?_⟩, fun q member => ?_⟩
  · exact Nat.nth_strictMono Nat.infinite_setOfPred_prime (Nat.lt_succ_self k)
  · by_contra below
    have gap := Nat.le_nth_of_lt_nth_succ (Nat.lt_of_not_le below) member.1
    exact absurd member.2 (Nat.not_lt.2 gap)

theorem nextPrime_nthPrime (n : Nat) : nextPrime (nthPrime n) = nthPrime (n + 1) := rfl

theorem nthPrime_succ (k : Nat) : nthPrime (k + 1) = nth Nat.Prime k := by
  induction k with
  | zero => exact (nextPrime_of_lt_two Nat.one_lt_two).trans Nat.nth_prime_zero_eq_two.symm
  | succ k ih => rw [← nextPrime_nthPrime, ih, nextPrime_nth]

theorem primeCounting_nth (k : Nat) : primeCounting (nth Nat.Prime k) = k + 1 :=
  Nat.count_nth_succ_of_infinite Nat.infinite_setOfPred_prime k

theorem primeCounting_succ (n : Nat) :
    primeCounting (n + 1) = primeCounting n + if (n + 1).Prime then 1 else 0 :=
  Nat.count_succ Nat.Prime (n + 1)

/-- A prime is known by its place among the primes. -/
theorem eq_nthPrime {p k : Nat} (prime : p.Prime) (count : primeCounting p = k) :
    p = nthPrime k := by
  have place : primeCounting p = Nat.count Nat.Prime p + 1 := by
    rw [primeCounting, Nat.primeCounting', Nat.count_succ, if_pos prime]
  rw [← count, place, nthPrime_succ, Nat.nth_count prime]

theorem primeCounting_lt {n p : Nat} (prime : p.Prime) (below : n < p) :
    primeCounting n < primeCounting p := by
  obtain ⟨before, rfl⟩ := Nat.exists_eq_succ_of_ne_zero (Nat.ne_zero_of_lt below)
  rw [Nat.succ_eq_add_one, primeCounting_succ, if_pos prime]
  exact Nat.lt_succ_of_le (Nat.monotone_primeCounting (Nat.le_of_lt_succ below))

theorem prime_nthPrime {n : Nat} (positive : 0 < n) :
    (nthPrime n).Prime ∧ primeCounting (nthPrime n) = n := by
  obtain ⟨k, rfl⟩ := Nat.exists_eq_succ_of_ne_zero positive.ne'
  rw [Nat.succ_eq_add_one, nthPrime_succ]
  exact ⟨Nat.prime_nth_prime k, primeCounting_nth k⟩

/-! ## Bounds -/

/-- The limit on arguments of the next prime is a prime itself, so the search never passes it. -/
theorem prime_nextPrimeLimit : nextPrimeLimit.Prime :=
  lucas_lehmer_sufficiency 31 (by norm_num) (by norm_num)

theorem nextPrime_le {n : Nat} (below : n < nextPrimeLimit) : nextPrime n ≤ nextPrimeLimit :=
  (isLeast_nextPrime n).2 ⟨prime_nextPrimeLimit, below⟩

/-- There are enough primes of at most 22 binary digits, by an elementary lower bound. -/
theorem nthPrimeLimit_le : nthPrimeLimit ≤ primeCounting (2 ^ 22) := by
  have two : 0 < Real.log 2 := Real.log_pos one_lt_two
  have digits : Real.log (2 ^ 22 : Nat) = 22 * Real.log 2 := by
    rw [Nat.cast_pow, Real.log_pow]
    norm_num
  have error : Real.log ((2 ^ 22 : Nat) + 1) ≤ 23 * Real.log 2 := by
    have power : Real.log (2 ^ 23) = 23 * Real.log 2 := by
      rw [Real.log_pow]
      norm_num
    rw [← power]
    exact Real.log_le_log (by positivity) (by norm_num)
  have enough : (nthPrimeLimit : ℝ) ≤ primeCounting (2 ^ 22) := by
    refine le_trans ?_ (Chebyshev.pi_ge (2 ^ 22))
    rw [digits, le_div_iff₀ (by positivity)]
    calc (nthPrimeLimit : ℝ) * (22 * Real.log 2)
        ≤ (2 ^ 22 - 23) * Real.log 2 := by
          rw [← mul_assoc]
          exact mul_le_mul_of_nonneg_right (by norm_num [nthPrimeLimit]) two.le
      _ = (2 ^ 22 : Nat) * Real.log 2 - 23 * Real.log 2 := by
          push_cast
          ring
      _ ≤ (2 ^ 22 : Nat) * Real.log 2 - Real.log ((2 ^ 22 : Nat) + 1) := by linarith
  exact_mod_cast enough

/-- The primes that may be asked for have at most 22 binary digits. -/
theorem nthPrime_le {n : Nat} (within : n ≤ nthPrimeLimit) : nthPrime n ≤ 2 ^ 22 := by
  obtain rfl | positive := Nat.eq_zero_or_pos n
  · decide
  · by_contra beyond
    obtain ⟨prime, count⟩ := prime_nthPrime positive
    have := primeCounting_lt prime (Nat.lt_of_not_le beyond)
    have := nthPrimeLimit_le
    omega

end Reckoner.Library
