import Reckoner.Proofs.Primes

/-! # Searches on machine words

The searches for primes run on words of 64 binary digits, where a sum or a product that does not fit
and a division by zero are errors.  `Trial`, `Search` and `Counting` are their loops with every such
operation checked: a loop is in relation to a result if it ends there without an error.  For numbers of
at most 62 binary digits they do end, and nowhere else than the searches on natural numbers
(`tested_isPrime`, `search_iff`, `counting_iff`).
-/

namespace Reckoner.Library.Words

open Nat (primeCounting)

/-! ## Checked operations -/

/-- The word of a number, if it fits into one. -/
def word? (n : Nat) : Option UInt64 :=
  if n < UInt64.size then some (.ofNat n) else none

def sum? (a b : UInt64) : Option UInt64 :=
  word? (a.toNat + b.toNat)

def product? (a b : UInt64) : Option UInt64 :=
  word? (a.toNat * b.toNat)

def remainder? (a b : UInt64) : Option UInt64 :=
  if b = 0 then none else some (a % b)

theorem word?_eq_some_iff {n : Nat} {w : UInt64} : word? n = some w ↔ w.toNat = n := by
  have fits := w.toNat_lt_size
  rw [word?]
  split
  · next small =>
    rw [Option.some_inj, ← UInt64.toNat_inj, UInt64.toNat_ofNat_of_lt' small, eq_comm]
  · next large => exact iff_of_false (by simp) (by omega)

theorem sum?_one_eq_some_iff {a b : UInt64} : sum? a 1 = some b ↔ b.toNat = a.toNat + 1 :=
  word?_eq_some_iff

theorem product?_eq_some_iff {a b c : UInt64} :
    product? a b = some c ↔ c.toNat = a.toNat * b.toNat :=
  word?_eq_some_iff

theorem remainder?_eq_some_iff {a b c : UInt64} :
    remainder? a b = some c ↔ b.toNat ≠ 0 ∧ c.toNat = a.toNat % b.toNat := by
  have zero : b = 0 ↔ b.toNat = 0 := UInt64.toNat_inj.symm
  rw [remainder?]
  split
  · next none => exact iff_of_false (by simp) fun some => some.1 (zero.1 none)
  · next some =>
    rw [Option.some_inj, ← UInt64.toNat_inj, UInt64.toNat_mod, eq_comm]
    exact (and_iff_right (mt zero.2 some)).symm

theorem exists_word {n : Nat} (small : n < 2 ^ 64) : ∃ w : UInt64, w.toNat = n :=
  ⟨.ofNat n, UInt64.toNat_ofNat_of_lt' small⟩

/-! ## The loops -/

/-- The trials of the divisors of `n` from `d` on end with an answer: whether `n` has none of them up
to its square root. -/
inductive Trial (n : UInt64) : UInt64 → Bool → Prop
  | past {d square : UInt64} : product? d d = some square → n < square → Trial n d true
  | divides {d square : UInt64} : product? d d = some square → square ≤ n →
      remainder? n d = some 0 → Trial n d false
  | next {d square rest following : UInt64} {answer : Bool} : product? d d = some square →
      square ≤ n → remainder? n d = some rest → rest ≠ 0 → sum? d 1 = some following →
      Trial n following answer → Trial n d answer

/-- The test for primality ends with an answer. -/
inductive Tested (n : UInt64) : Bool → Prop
  | small : n < 2 → Tested n false
  | tried {answer : Bool} : 2 ≤ n → Trial n 2 answer → Tested n answer

/-- The search for a prime from a number on ends at a result. -/
inductive Search : UInt64 → UInt64 → Prop
  | found {n : UInt64} : Tested n true → Search n n
  | further {n following result : UInt64} : Tested n false → sum? n 1 = some following →
      Search following result → Search n result

/-- The count of primes behind a candidate, so many of them counted already, ends at a result. -/
inductive Counting (target : UInt64) : UInt64 → UInt64 → UInt64 → Prop
  | reached {count candidate : UInt64} : target ≤ count → Counting target count candidate candidate
  | prime {count candidate following increased result : UInt64} : count < target →
      sum? candidate 1 = some following → Tested following true → sum? count 1 = some increased →
      Counting target increased following result → Counting target count candidate result
  | other {count candidate following result : UInt64} : count < target →
      sum? candidate 1 = some following → Tested following false →
      Counting target count following result → Counting target count candidate result

variable {n d start result target count candidate : UInt64}

/-! ## Trial division -/

theorem Trial.answer_eq {answer : Bool} (ends : Trial n d answer) :
    answer = noDivisorFrom n.toNat d.toNat := by
  induction ends with
  | past square past =>
    rw [UInt64.lt_iff_toNat_lt, product?_eq_some_iff.1 square] at past
    rw [noDivisorFrom, if_pos past]
  | divides square within rest =>
    rw [UInt64.le_iff_toNat_le, product?_eq_some_iff.1 square] at within
    have zero : n.toNat % _ = 0 := (remainder?_eq_some_iff.1 rest).2.symm
    rw [noDivisorFrom, if_neg (Nat.not_lt.2 within), if_pos zero]
  | next square within rest nonzero following _ ih =>
    rw [UInt64.le_iff_toNat_le, product?_eq_some_iff.1 square] at within
    have other : n.toNat % _ ≠ 0 := (remainder?_eq_some_iff.1 rest).2 ▸ mt UInt64.toNat_inj.1 nonzero
    rw [noDivisorFrom, if_neg (Nat.not_lt.2 within), if_neg other, ih,
      sum?_one_eq_some_iff.1 following]

/-- The square of what is tried next fits into a word, as its predecessor's is not above `n`. -/
theorem exists_square (small : n.toNat < 2 ^ 62)
    (reached : (d.toNat - 1) * (d.toNat - 1) ≤ n.toNat) :
    ∃ square, product? d d = some square ∧ (n < square ↔ n.toNat < d.toNat * d.toNat) := by
  have bound : d.toNat < 2 ^ 32 := by
    by_contra large
    have wide : 2 ^ 31 ≤ d.toNat - 1 := by omega
    have square := Nat.mul_le_mul wide wide
    omega
  have fits : d.toNat * d.toNat < 2 ^ 32 * 2 ^ 32 := Nat.mul_lt_mul'' bound bound
  obtain ⟨square, value⟩ := exists_word fits
  exact ⟨square, product?_eq_some_iff.2 value, value ▸ UInt64.lt_iff_toNat_lt⟩

/-- The trials end, and with the answer of those on natural numbers. -/
theorem trial_noDivisorFrom (small : n.toNat < 2 ^ 62) {k : Nat} (value : d.toNat = k)
    (positive : 0 < k) (reached : (k - 1) * (k - 1) ≤ n.toNat) :
    Trial n d (noDivisorFrom n.toNat k) := by
  -- One word is tried for each number that is; what was reached bounds its square.
  induction k using noDivisorFrom.induct n.toNat generalizing d with
  | case1 k past =>
    obtain ⟨square, product, compared⟩ := exists_square small (value ▸ reached)
    rw [noDivisorFrom, if_pos past]
    exact .past product (compared.2 (value ▸ past))
  | case2 k within divides =>
    obtain ⟨square, product, compared⟩ := exists_square small (value ▸ reached)
    rw [noDivisorFrom, if_neg within, if_pos divides]
    refine .divides product (UInt64.not_lt.1 (mt compared.1 (value ▸ within))) ?_
    exact remainder?_eq_some_iff.2 ⟨by omega, value ▸ divides.symm⟩
  | case3 k within rest ih =>
    obtain ⟨square, product, compared⟩ := exists_square small (value ▸ reached)
    have inside : k * k ≤ n.toNat := Nat.le_of_not_lt within
    have bound : k ≤ n.toNat := (Nat.le_mul_self k).trans inside
    obtain ⟨remainder, left⟩ := exists_word ((Nat.mod_lt n.toNat positive).trans (by omega))
    obtain ⟨following, increased⟩ := exists_word (show k + 1 < 2 ^ 64 by omega)
    rw [noDivisorFrom, if_neg within, if_neg rest]
    refine .next product (UInt64.not_lt.1 (mt compared.1 (value ▸ within)))
      (remainder?_eq_some_iff.2 ⟨by omega, value ▸ left⟩) ?_
      (sum?_one_eq_some_iff.2 (value ▸ increased)) (ih increased (Nat.succ_pos k) inside)
    rintro rfl
    exact rest left.symm

theorem Tested.answer_eq {answer : Bool} (ends : Tested n answer) : answer = isPrime n.toNat := by
  cases ends with
  | small few =>
    have below : ¬ 2 ≤ n.toNat := Nat.not_le.2 (UInt64.lt_iff_toNat_lt.1 few)
    rw [isPrime, decide_eq_false below, Bool.false_and]
  | tried enough ends =>
    have above : 2 ≤ n.toNat := UInt64.le_iff_toNat_le.1 enough
    rw [isPrime, decide_eq_true above, Bool.true_and]
    exact ends.answer_eq

theorem tested_isPrime (small : n.toNat < 2 ^ 62) : Tested n (isPrime n.toNat) := by
  by_cases few : n.toNat < 2
  · rw [isPrime, decide_eq_false (Nat.not_le.2 few), Bool.false_and]
    exact .small (UInt64.lt_iff_toNat_lt.2 few)
  · have above := Nat.le_of_not_lt few
    rw [isPrime, decide_eq_true above, Bool.true_and]
    exact .tried (UInt64.le_iff_toNat_le.2 above)
      (trial_noDivisorFrom small rfl (by decide) (by omega))

theorem Tested.prime (tested : Tested n true) : n.toNat.Prime :=
  isPrime_iff.1 tested.answer_eq.symm

theorem Tested.composite (tested : Tested n false) : ¬ n.toNat.Prime := by
  rw [← isPrime_iff, ← tested.answer_eq]
  exact Bool.false_ne_true

theorem tested_of_prime (small : n.toNat < 2 ^ 62) (prime : n.toNat.Prime) : Tested n true :=
  isPrime_iff.2 prime ▸ tested_isPrime small

theorem tested_of_composite (small : n.toNat < 2 ^ 62) (composite : ¬ n.toNat.Prime) :
    Tested n false :=
  Bool.eq_false_iff.2 (mt isPrime_iff.1 composite) ▸ tested_isPrime small

/-! ## The next prime -/

theorem Search.isLeast (ends : Search start result) :
    IsLeast {q | q.Prime ∧ start.toNat ≤ q} result.toNat := by
  induction ends with
  | found tested =>
    exact ⟨⟨tested.prime, le_rfl⟩, fun q member => member.2⟩
  | @further n following result tested increased _ ih =>
    have value := sum?_one_eq_some_iff.1 increased
    obtain ⟨⟨prime, above⟩, least⟩ := ih
    refine ⟨⟨prime, by omega⟩, fun q ⟨primeQ, aboveQ⟩ => least ⟨primeQ, ?_⟩⟩
    have other : n.toNat ≠ q := by
      rintro rfl
      exact tested.composite primeQ
    omega

/-- Every step takes the search nearer to the least prime, past numbers that are not prime. -/
theorem search_of_isLeast (small : result.toNat < 2 ^ 62)
    (least : IsLeast {q | q.Prime ∧ start.toNat ≤ q} result.toNat) : Search start result := by
  obtain ⟨⟨prime, above⟩, lower⟩ := least
  induction gap : result.toNat - start.toNat generalizing start with
  | zero =>
    obtain rfl : start = result := UInt64.toNat_inj.1 (by omega)
    exact .found (tested_of_prime small prime)
  | succ gap ih =>
    have composite : ¬ start.toNat.Prime := by
      intro primeStart
      have := lower ⟨primeStart, le_rfl⟩
      omega
    obtain ⟨following, value⟩ := exists_word (show start.toNat + 1 < 2 ^ 64 by omega)
    have later : result.toNat ∈ lowerBounds {q | q.Prime ∧ following.toNat ≤ q} :=
      fun q ⟨primeQ, aboveQ⟩ => lower ⟨primeQ, by omega⟩
    exact .further (tested_of_composite (by omega) composite) (sum?_one_eq_some_iff.2 value)
      (ih later (by omega) (by omega))

/-- A search among numbers that fit ends at the least prime and nowhere else. -/
theorem search_iff {p : Nat} (small : p < 2 ^ 62)
    (least : IsLeast {q | q.Prime ∧ start.toNat ≤ q} p) : Search start result ↔ result.toNat = p := by
  constructor
  · exact fun ends => ends.isLeast.unique least
  · rintro rfl
    exact search_of_isLeast small least

/-! ## Counting primes -/

theorem primeCounting_step {following : UInt64} (next : following.toNat = candidate.toNat + 1) :
    primeCounting following.toNat =
      primeCounting candidate.toNat + if following.toNat.Prime then 1 else 0 := by
  rw [next, primeCounting_succ]

/-- The counter holds the number of primes up to the candidate all along. -/
theorem Counting.primeCounting_eq (ends : Counting target count candidate result)
    (counted : count.toNat = primeCounting candidate.toNat) (within : count ≤ target) :
    primeCounting result.toNat = target.toNat ∧ (result = candidate ∨ result.toNat.Prime) := by
  induction ends with
  | reached done =>
    exact ⟨counted ▸ congrArg UInt64.toNat (UInt64.le_antisymm within done), .inl rfl⟩
  | @prime count candidate following increased result more step tested counter _ ih =>
    have next := sum?_one_eq_some_iff.1 step
    have prime := tested.prime
    have counted' : increased.toNat = primeCounting following.toNat := by
      rw [sum?_one_eq_some_iff.1 counter, counted, primeCounting_step next, if_pos prime]
    have within' : increased ≤ target := by
      rw [UInt64.lt_iff_toNat_lt] at more
      rw [UInt64.le_iff_toNat_le, sum?_one_eq_some_iff.1 counter]
      omega
    obtain ⟨place, rfl | prime⟩ := ih counted' within'
    · exact ⟨place, .inr prime⟩
    · exact ⟨place, .inr prime⟩
  | @other count candidate following result more step tested _ ih =>
    have next := sum?_one_eq_some_iff.1 step
    have counted' : count.toNat = primeCounting following.toNat := by
      rw [counted, primeCounting_step next, if_neg tested.composite, Nat.add_zero]
    obtain ⟨place, rfl | prime⟩ := ih counted' within
    · -- The count is not complete yet, so it does not end here.
      rw [UInt64.lt_iff_toNat_lt, ← place, counted'] at more
      exact absurd more (Nat.lt_irrefl _)
    · exact ⟨place, .inr prime⟩

/-- Every step takes the candidate nearer to the prime, and until it is there the count is too low. -/
theorem counting_of_prime (small : result.toNat < 2 ^ 62) (prime : result.toNat.Prime)
    (place : primeCounting result.toNat = target.toNat) (below : candidate.toNat ≤ result.toNat)
    (counted : count.toNat = primeCounting candidate.toNat) :
    Counting target count candidate result := by
  induction gap : result.toNat - candidate.toNat generalizing count candidate with
  | zero =>
    obtain rfl : candidate = result := UInt64.toNat_inj.1 (by omega)
    exact .reached (UInt64.le_iff_toNat_le.2 (by omega))
  | succ gap ih =>
    have before : primeCounting candidate.toNat < primeCounting result.toNat :=
      primeCounting_lt prime (by omega)
    have more : count < target := UInt64.lt_iff_toNat_lt.2 (by omega)
    obtain ⟨following, next⟩ := exists_word (show candidate.toNat + 1 < 2 ^ 64 by omega)
    have step := sum?_one_eq_some_iff.2 next
    have counting := primeCounting_step next
    by_cases primeNext : following.toNat.Prime
    · rw [if_pos primeNext] at counting
      have room := target.toNat_lt
      obtain ⟨increased, counter⟩ := exists_word (show count.toNat + 1 < 2 ^ 64 by omega)
      exact .prime more step (tested_of_prime (by omega) primeNext)
        (sum?_one_eq_some_iff.2 counter) (ih (by omega) (by omega) (by omega))
    · rw [if_neg primeNext] at counting
      exact .other more step (tested_of_composite (by omega) primeNext)
        (ih (by omega) (by omega) (by omega))

/-- Counted from one on, the primes lead to the one whose place is the target and nowhere else. -/
theorem counting_iff (positive : 0 < target.toNat) (small : nthPrime target.toNat < 2 ^ 62) :
    Counting target 0 1 result ↔ result.toNat = nthPrime target.toNat := by
  have none : (0 : UInt64).toNat = primeCounting (1 : UInt64).toNat := by decide
  constructor
  · intro ends
    have within : 0 ≤ target := UInt64.le_iff_toNat_le.2 (Nat.zero_le _)
    obtain ⟨place, rfl | prime⟩ := ends.primeCounting_eq none within
    · rw [← none] at place
      exact absurd place positive.ne
    · exact eq_nthPrime prime place
  · intro value
    obtain ⟨prime, place⟩ := prime_nthPrime positive
    rw [← value] at small prime place
    exact counting_of_prime small prime place prime.one_lt.le none

end Reckoner.Library.Words
