import Reckoner.Number.Display
import Reckoner.Proofs.Decimals
import Reckoner.Proofs.Floats
import Reckoner.Proofs.Literals

/-! # Number text reads back

Positional text keeps the value of a decimal (`decimal?_positional`), and the decimal that is written
rounds to the number it was made from, so a number's text reads back as that number
(`parse_display`).  The text is plain: it has no exponent, a point only in front of places, and no
place that could be left out.
-/

namespace Reckoner

open Binary64 (infinityBits ofMagnitude units unitsPerOne view)
open Literal (AllDigits)

/-! ## Zeros around digits -/

namespace Digits

theorem toNat_replicate_append (k : Nat) (digits : List Char) :
    toNat (List.replicate k '0' ++ digits) = toNat digits := by
  induction k with
  | zero => rfl
  | succ k ih => exact ih

theorem toNat_append_replicate (digits : List Char) (k : Nat) :
    toNat (digits ++ List.replicate k '0') = toNat digits * Decimal.tenTo k := by
  induction k with
  | zero => simp [Decimal.tenTo]
  | succ k ih =>
    have zero : '0'.toNat - '0'.toNat = 0 := rfl
    have power : Decimal.tenTo (k + 1) = Decimal.tenTo k * 10 := rfl
    rw [List.replicate_succ', ← List.append_assoc, toNat_append_singleton, ih, zero, power]
    ring

theorem allDigits_ofNat (n : Nat) : AllDigits (ofNat n) :=
  List.all_eq_true.1 (all_isDigit_ofNat n)

theorem ofNat_ne_nil (n : Nat) : ofNat n ≠ [] := by
  rw [ofNat]
  split <;> simp

theorem getLast?_ofNat (n : Nat) : (ofNat n).getLast? = some (ofDigit (n % 10)) := by
  rw [ofNat]
  split
  · next small => rw [Nat.mod_eq_of_lt small, List.getLast?_singleton]
  · rw [List.getLast?_append, List.getLast?_singleton, Option.some_or]

theorem ofDigit_ne_zero {d : Nat} (small : d < 10) (nonzero : d ≠ 0) : ofDigit d ≠ '0' := by
  have table : ∀ d, d < 10 → d ≠ 0 → ofDigit d ≠ '0' := by decide
  exact table d small nonzero

end Digits

/-! ## Positional text -/

/-- Digits, and behind them, unless the number is whole, a point and places that end in another digit
than zero. -/
inductive PlainText (isWhole : Prop) : List Char → Prop
  | whole {digits : List Char} (holds : isWhole) (nonempty : digits ≠ [])
      (digit : AllDigits digits) : PlainText isWhole digits
  | places {digits places : List Char} {last : Char} (fails : ¬ isWhole) (nonempty : digits ≠ [])
      (digit : AllDigits digits) (place : AllDigits (places ++ [last])) (stays : last ≠ '0') :
      PlainText isWhole (digits ++ '.' :: (places ++ [last]))

namespace Decimal

theorem allDigits_replicate (k : Nat) : AllDigits (List.replicate k '0') := by
  intro c hc
  rw [List.eq_of_mem_replicate hc]
  rfl

/-- The split before the last places loses nothing and leaves a digit in front. -/
theorem splitPlaces_eq (digits : List Char) (places : Nat) : ∃ whole fraction,
    splitPlaces digits places = (whole, fraction) ∧
      whole ++ fraction = List.replicate (places + 1 - digits.length) '0' ++ digits ∧
      fraction.length = places ∧ whole ≠ [] := by
  have size : (List.replicate (places + 1 - digits.length) '0' ++ digits).length =
      places + 1 - digits.length + digits.length := by simp
  rw [splitPlaces, List.splitAt_eq]
  generalize List.replicate (places + 1 - digits.length) '0' ++ digits = padded at size
  refine ⟨_, _, rfl, List.take_append_drop _ _, ?_, ?_⟩
  · rw [List.length_drop]
    omega
  · rw [← List.length_pos_iff_ne_nil, List.length_take]
    omega

theorem positional_ofNat (coefficient k : Nat) : ∃ digits,
    positional ⟨coefficient, .ofNat k⟩ = digits ∧ digits ≠ [] ∧ AllDigits digits ∧
      Digits.toNat digits = coefficient * tenTo k := by
  refine ⟨Digits.ofNat coefficient ++ List.replicate k '0', rfl, ?_, ?_, ?_⟩
  · simp [Digits.ofNat_ne_nil]
  · exact List.forall_mem_append.2 ⟨Digits.allDigits_ofNat coefficient, allDigits_replicate k⟩
  · rw [Digits.toNat_append_replicate, Digits.toNat_ofNat]

theorem positional_negSucc (coefficient k : Nat) : ∃ whole places,
    positional ⟨coefficient, .negSucc k⟩ = whole ++ '.' :: places ∧ whole ≠ [] ∧
      AllDigits whole ∧ AllDigits places ∧ places.length = k + 1 ∧
      Digits.toNat (whole ++ places) = coefficient ∧
      (whole ++ places).getLast? = some (Digits.ofDigit (coefficient % 10)) := by
  obtain ⟨whole, places, split, digits, length, nonempty⟩ :=
    splitPlaces_eq (Digits.ofNat coefficient) (k + 1)
  have digit : AllDigits (whole ++ places) := by
    rw [digits]
    exact List.forall_mem_append.2 ⟨allDigits_replicate _, Digits.allDigits_ofNat coefficient⟩
  obtain ⟨hwhole, hplaces⟩ := List.forall_mem_append.1 digit
  refine ⟨whole, places, ?_, nonempty, hwhole, hplaces, length, ?_, ?_⟩
  · simp only [positional, split]
  · rw [digits, Digits.toNat_replicate_append, Digits.toNat_ofNat]
  · rw [digits, List.getLast?_append, Digits.getLast?_ofNat, Option.some_or]

/-- Positional text is read with the value of the decimal. -/
theorem decimal?_positional (d : Decimal) :
    ∃ e, Literal.decimal? d.positional = some e ∧ e.value = d.value := by
  obtain ⟨coefficient, exponent⟩ := d
  cases exponent with
  | ofNat k =>
    obtain ⟨digits, text, nonempty, digit, number⟩ := positional_ofNat coefficient k
    have read := Literal.decimal?_whole nonempty digit
    rw [number] at read
    refine ⟨_, text ▸ read, ?_⟩
    simp [value, tenTo]
  | negSucc k =>
    obtain ⟨whole, places, text, nonempty, hwhole, hplaces, length, number, -⟩ :=
      positional_negSucc coefficient k
    have read := Literal.decimal?_places nonempty hwhole hplaces
    rw [number, length] at read
    refine ⟨_, text ▸ read, ?_⟩
    rw [value, value, Int.negSucc_eq]
    rfl

/-- The point of positional text is never idle if the coefficient has no trailing zero. -/
theorem plainText_positional {d : Decimal} (last : d.coefficient % 10 ≠ 0) :
    PlainText (0 ≤ d.exponent) d.positional := by
  obtain ⟨coefficient, exponent⟩ := d
  cases exponent with
  | ofNat k =>
    obtain ⟨digits, text, nonempty, digit, -⟩ := positional_ofNat coefficient k
    exact text ▸ .whole (Int.natCast_nonneg k) nonempty digit
  | negSucc k =>
    obtain ⟨whole, places, text, nonempty, hwhole, hplaces, length, -, ends⟩ :=
      positional_negSucc coefficient k
    -- There is a place, and the last of them is the last digit of the coefficient.
    cases places using List.reverseRecOn with
    | nil => cases length
    | append_singleton front final =>
      rw [← List.append_assoc, List.getLast?_concat, Option.some_inj] at ends
      rw [text]
      refine .places (by simp) nonempty hwhole hplaces ?_
      rw [ends]
      exact Digits.ofDigit_ne_zero (Nat.mod_lt _ (by decide)) last

end Decimal

theorem PlainText.congr {a b : Prop} {text : List Char} (same : a ↔ b) (h : PlainText a text) :
    PlainText b text := by
  cases h with
  | whole holds nonempty digit => exact .whole (same.1 holds) nonempty digit
  | places fails nonempty digit place stays =>
    exact .places (fun holds => fails (same.2 holds)) nonempty digit place stays

/-! ## The text of a number -/

namespace Number

theorem unsigned?_magnitudeText {bits : Nat} (finite : bits < infinityBits) :
    Literal.unsigned? (magnitudeText bits) = some (ofMagnitude bits) := by
  rw [magnitudeText]
  split
  · next zero =>
    rw [zero, Literal.unsigned?_of_decimal? (show Literal.decimal? ['0'] = some ⟨0, 0⟩ by decide)]
    rfl
  · obtain ⟨e, read, value⟩ := (Decimal.ofBits bits).decimal?_positional
    rw [Literal.unsigned?_of_decimal? read, Decimal.toFloat, Decimal.toBits_congr value,
      Decimal.toBits_ofBits finite]

theorem plainText_magnitudeText {bits : Nat} (finite : bits < infinityBits) :
    PlainText (unitsPerOne ∣ units bits) (magnitudeText bits) := by
  rw [magnitudeText]
  split
  · next zero =>
    subst zero
    exact .whole (Nat.dvd_zero _) (by simp) (by simp [AllDigits])
  · next nonzero =>
    exact (Decimal.plainText_positional (Decimal.coefficient_ofBits finite nonzero)).congr
      (Decimal.exponent_ofBits_nonneg_iff finite nonzero)

/-- A minus sign in front of a text negates what the text is read as. -/
theorem read?_signText {text : List Char} {v : Float} (negative : Bool)
    (read : Literal.unsigned? text = some v) :
    Literal.read? (signText negative ++ text) = some (if negative then -v else v) := by
  cases negative with
  | false =>
    have unsigned := Literal.read?_of_head (Literal.head_of_isSome (Option.isSome_of_eq_some read))
    exact unsigned.trans read
  | true => simp [signText, Literal.read?, read]

theorem parse_signText {text : List Char} {v : Float} (negative : Bool)
    (read : Literal.unsigned? text = some v) :
    Literal.parse (signText negative ++ text) = .ok (if negative then -v else v) := by
  rw [Literal.parse, read?_signText negative read]

theorem chars_display (x : Float) : (display x).toList = chars x :=
  String.toList_ofList

theorem view_eq_negative_zero_iff {x : Float} :
    view x = .finite true 0 ↔ x.toBits = (-0.0 : Float).toBits := by
  constructor
  · intro h
    rw [← Binary64.toFloat_view x, h]
    decide +kernel
  · intro h
    rw [view, h]
    decide +kernel

theorem parse_chars (x : Float) :
    Literal.parse (chars x) = .ok (if view x = .finite true 0 then 0.0 else x) := by
  have back := Binary64.toFloat_view x
  have finite := @Binary64.finite_of_view x
  rw [chars]
  generalize view x = v at back finite
  subst back
  cases v with
  | nan => exact Literal.parse_of_unsigned? rfl
  | infinite negative => exact parse_signText negative rfl
  | finite negative magnitude =>
    have read := parse_signText (negative && magnitude != 0) (unsigned?_magnitudeText (finite rfl))
    refine read.trans (congrArg Except.ok ?_)
    -- Only the sign of a zero is lost.
    cases negative with
    | false => rfl
    | true =>
      by_cases zero : magnitude = 0
      · subst zero
        rfl
      · simp [zero, Binary64.View.toFloat]

/-- The text of a number reads back as that number, negative zero alone coming back as zero.  The text
of a finite number is a sign or none and then plain, with a point exactly if the number is not
whole. -/
theorem parse_display (x : Float) :
    Literal.parse (display x).toList =
        .ok (if x.toBits = (-0.0 : Float).toBits then 0.0 else x) ∧
      ∀ negative magnitude, view x = .finite negative magnitude →
        ∃ sign text, (display x).toList = sign ++ text ∧ (sign = [] ∨ sign = ['-']) ∧
          PlainText (unitsPerOne ∣ units magnitude) text := by
  rw [chars_display]
  constructor
  · rw [parse_chars]
    simp only [view_eq_negative_zero_iff]
  · intro negative magnitude finite
    have plain := plainText_magnitudeText (Binary64.finite_of_view finite)
    rw [chars, finite]
    refine ⟨_, _, rfl, ?_, plain⟩
    unfold signText
    split
    · exact .inr rfl
    · exact .inl rfl

theorem parse_display_smallest : view (-ofMagnitude 1) = .finite true 1 ∧
    Literal.parse (display (-ofMagnitude 1)).toList = .ok (-ofMagnitude 1) ∧
    ∃ sign text, (display (-ofMagnitude 1)).toList = sign ++ text ∧ (sign = [] ∨ sign = ['-']) ∧
      PlainText (unitsPerOne ∣ units 1) text := by
  have finite : view (-ofMagnitude 1) = .finite true 1 := by decide +kernel
  obtain ⟨read, shape⟩ := parse_display (-ofMagnitude 1)
  rw [if_neg (by decide +kernel)] at read
  exact ⟨finite, read, shape true 1 finite⟩

end Number
end Reckoner
