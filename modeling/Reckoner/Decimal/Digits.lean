/-! # Decimal digits of a natural number

`ofNat` writes a number without leading zeros and `toNat` reads any run of digits, so
`toNat (ofNat n) = n` (`toNat_ofNat`).
-/

namespace Reckoner.Digits

/-- The character of one digit. -/
def ofDigit (d : Nat) : Char :=
  Char.ofNat ('0'.toNat + d)

/-- The digits of a number, most significant first. -/
def ofNat (n : Nat) : List Char :=
  if n < 10 then [ofDigit n] else ofNat (n / 10) ++ [ofDigit (n % 10)]

/-- How many digits `ofNat` writes. -/
def count (n : Nat) : Nat :=
  if n < 10 then 1 else count (n / 10) + 1

/-- The number that a run of digits stands for, read from the left. -/
def toNat (digits : List Char) : Nat :=
  digits.foldl (fun n c => 10 * n + (c.toNat - '0'.toNat)) 0

theorem toNat_append_singleton (digits : List Char) (c : Char) :
    toNat (digits ++ [c]) = 10 * toNat digits + (c.toNat - '0'.toNat) := by
  simp [toNat, List.foldl_append]

theorem toNat_ofDigit {d : Nat} (h : d < 10) : (ofDigit d).toNat - '0'.toNat = d := by
  have table : ∀ d, d < 10 → (ofDigit d).toNat - '0'.toNat = d := by decide
  exact table d h

theorem toNat_ofNat (n : Nat) : toNat (ofNat n) = n := by
  induction n using ofNat.induct with
  | case1 n h =>
    rw [ofNat, if_pos h]
    have := toNat_ofDigit h
    simpa [toNat] using this
  | case2 n h ih =>
    rw [ofNat, if_neg h, toNat_append_singleton, ih, toNat_ofDigit (Nat.mod_lt _ (by omega))]
    omega

theorem length_ofNat (n : Nat) : (ofNat n).length = count n := by
  induction n using ofNat.induct with
  | case1 n h => rw [ofNat, count, if_pos h, if_pos h]; rfl
  | case2 n h ih => rw [ofNat, count, if_neg h, if_neg h]; simp [ih]

theorem isDigit_ofDigit {d : Nat} (h : d < 10) : (ofDigit d).isDigit = true := by
  have table : ∀ d, d < 10 → (ofDigit d).isDigit = true := by decide
  exact table d h

theorem all_isDigit_ofNat (n : Nat) : (ofNat n).all Char.isDigit = true := by
  induction n using ofNat.induct with
  | case1 n h => rw [ofNat, if_pos h]; simp [isDigit_ofDigit h]
  | case2 n h ih =>
    rw [ofNat, if_neg h]
    simp [ih, isDigit_ofDigit (Nat.mod_lt n (by omega : 10 > 0))]

end Reckoner.Digits
