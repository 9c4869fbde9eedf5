import Reckoner.Json.Number
import Reckoner.Proofs.JsonText
import Reckoner.Proofs.NumberText

/-! # The text of JSON numbers

An integer of 64 bits is read as the integer that was written (`ofLexeme?_integer`).  The text of a
float is a decimal literal with the value of its shortest decimal in whatever notation it stands
(`decimal?_decimalChars`), so a reading that rounds correctly gives the float back
(`lossless_nearest`).
-/

namespace Reckoner.Json.Number

open Literal (AllDigits)

/-! ## Integers -/

theorem head_ofNat {n : Nat} (pos : 0 < n) :
    ∃ first more, Digits.ofNat n = first :: more ∧ first ≠ '0' := by
  induction n using Digits.ofNat.induct with
  | case1 n small =>
    rw [Digits.ofNat, if_pos small]
    exact ⟨_, [], rfl, Digits.ofDigit_ne_zero small pos.ne'⟩
  | case2 n large ih =>
    obtain ⟨first, more, text, nonzero⟩ := ih (by omega)
    rw [Digits.ofNat, if_neg large, text]
    exact ⟨first, _, rfl, nonzero⟩

theorem isWhole_ofNat (n : Nat) : isWhole (Digits.ofNat n) = true := by
  obtain rfl | pos := Nat.eq_zero_or_pos n
  · rw [Digits.ofNat, if_pos (by decide)]
    rfl
  · obtain ⟨first, more, text, nonzero⟩ := head_ofNat pos
    rw [text]
    cases more with
    | nil => rfl
    | cons second more => simp [isWhole, nonzero]

theorem ofUnsigned?_ofNat (negative : Bool) (n : Nat) :
    ofUnsigned? negative (Digits.ofNat n) = some (ofWhole? negative (Digits.ofNat n)) := by
  obtain ⟨whole, rest⟩ := @Literal.span_digits _ [] (Digits.allDigits_ofNat n) (by simp)
  rw [List.append_nil] at whole rest
  simp [ofUnsigned?, whole, rest, isWhole_ofNat, allowsTail]

/-- The integers of 64 bits, with or without a sign. -/
def Fits (value : Int) : Prop :=
  -negativeBound ≤ value ∧ value < significandBound

theorem negativeBound_lt : negativeBound < significandBound := by decide

theorem ofLexeme?_of_head {text : List Char} (h : ∀ c ∈ text.head?, c ≠ '-') :
    ofLexeme? text = ofUnsigned? false text := by
  unfold ofLexeme?
  split
  · exact absurd rfl (h '-' rfl)
  · rfl

theorem gather_ofNat {n : Nat} (fits : n < significandBound) :
    gather 0 (Digits.ofNat n) = (n, []) := by
  rw [gather_eq_toNat (by rwa [Digits.toNat_ofNat]), Digits.toNat_ofNat]

theorem ofLexeme?_integer {value : Int} (fits : Fits value) :
    ofLexeme? (integer value).chars = some (some (.integer value)) := by
  obtain ⟨low, high⟩ := fits
  have bound := negativeBound_lt
  have gathered := gather_ofNat (show value.natAbs < significandBound by omega)
  by_cases negative : value < 0
  · have text : (integer value).chars = '-' :: Digits.ofNat value.natAbs := by
      simp [chars, negative]
    have range : 0 < value.natAbs ∧ value.natAbs ≤ negativeBound := by omega
    have sign : -(value.natAbs : Int) = value := by omega
    rw [text, ofLexeme?, ofUnsigned?_ofNat, ofWhole?, gathered]
    simp only [Bool.not_true, Bool.false_eq_true, if_false, if_pos range, sign]
  · have text : (integer value).chars = Digits.ofNat value.natAbs := by
      simp [chars, negative]
    have head : ∀ c ∈ (Digits.ofNat value.natAbs).head?, c ≠ '-' := by
      rintro c hc rfl
      exact absurd (Digits.allDigits_ofNat _ '-' (List.mem_of_mem_head? hc)) (by decide)
    have sign : (value.natAbs : Int) = value := by omega
    rw [text, ofLexeme?_of_head head, ofUnsigned?_ofNat, ofWhole?, gathered]
    simp only [Bool.not_false, if_true, sign]

/-! ## Floats -/

theorem exponent?_exponentChars (e : Int) : Literal.exponent? (exponentChars e) = some e := by
  have digits : Literal.natural? (Digits.ofNat e.natAbs) = some e.natAbs := by
    rw [Literal.natural?, if_pos ⟨Digits.ofNat_ne_nil _, Digits.all_isDigit_ofNat _⟩,
      Digits.toNat_ofNat]
  by_cases negative : e < 0
  · have text : exponentChars e = 'e' :: '-' :: Digits.ofNat e.natAbs := by
      simp [exponentChars, negative]
    have sign : -(e.natAbs : Int) = e := by omega
    rw [text, Literal.exponent?, if_pos (.inl rfl), Literal.integer?, digits, Option.map_some]
    exact congrArg some sign
  · have text : exponentChars e = 'e' :: Digits.ofNat e.natAbs := by
      simp [exponentChars, negative]
    have sign : (e.natAbs : Int) = e := by omega
    rw [text, Literal.exponent?, if_pos (.inl rfl),
      Literal.integer?_of_digits (Digits.allDigits_ofNat _), digits, Option.map_some]
    exact congrArg some sign

/-- The notations of a float: digits in front of an idle point, digits around a point, and, with an
exponent, digits around a point or one digit alone. -/
theorem decimalChars_cases (d : Decimal) :
    (0 ≤ d.exponent ∧ decimalChars d = d.positional ++ ['.', '0']) ∨
    (d.exponent < 0 ∧ decimalChars d = d.positional) ∨
    (∃ first more, Digits.ofNat d.coefficient = first :: more ∧
      decimalChars d = [first] ++ '.' :: (more ++ exponentChars (d.exponent + more.length))) ∨
    decimalChars d = Digits.ofNat d.coefficient ++ exponentChars d.exponent := by
  have nonempty := Digits.ofNat_ne_nil d.coefficient
  simp only [decimalChars]
  split
  · next idle => exact .inl ⟨idle.1, rfl⟩
  · next busy =>
    split
    · next near => exact .inr (.inl ⟨Int.not_le.1 fun whole => busy ⟨whole, near.2⟩, rfl⟩)
    · cases text : Digits.ofNat d.coefficient with
      | nil => exact absurd text nonempty
      | cons first more =>
        have place : ((first :: more).length : Int) + d.exponent - 1 =
            d.exponent + more.length := by
          rw [List.length_cons]
          omega
        cases more with
        | nil =>
          refine .inr (.inr (.inr ?_))
          rw [place]
          simp
        | cons second more =>
          refine .inr (.inr (.inl ⟨first, _, rfl, ?_⟩))
          rw [place]
          simp

/-- Whatever the notation, the text has the value of the decimal. -/
theorem decimal?_decimalChars (d : Decimal) :
    ∃ e, Literal.decimal? (decimalChars d) = some e ∧ e.value = d.value := by
  obtain ⟨coefficient, exponent⟩ := d
  have digit := Digits.allDigits_ofNat coefficient
  have number := Digits.toNat_ofNat coefficient
  obtain ⟨whole, text⟩ | ⟨-, text⟩ | ⟨first, more, digits, text⟩ | text :=
    decimalChars_cases ⟨coefficient, exponent⟩
  · obtain ⟨k, rfl⟩ := Int.eq_ofNat_of_zero_le whole
    obtain ⟨_, rfl, nonempty, digit, number⟩ := Decimal.positional_ofNat coefficient k
    have read := Literal.decimal?_places nonempty digit (Decimal.allDigits_replicate 1)
    refine ⟨_, text ▸ read, ?_⟩
    -- The place behind the point is a factor of ten in the coefficient.
    have ten : Decimal.tenTo 1 = 10 := rfl
    have place : -((List.replicate 1 '0').length : Int) + 1 = 0 := rfl
    rw [Digits.toNat_append_replicate, number, ten, Decimal.value_mul_ten, place]
    simp [Decimal.value, Decimal.tenTo]
  · rw [text]
    exact Decimal.decimal?_positional _
  · rw [digits] at digit number
    have read := Literal.decimal?_point (.inl (List.cons_ne_nil first []))
      (fun c hc => digit c (by simp_all)) (fun c hc => digit c (List.mem_cons_of_mem first hc))
      (exponent?_exponentChars (exponent + more.length))
    rw [Int.add_sub_cancel, List.singleton_append, List.singleton_append, number] at read
    exact ⟨_, text ▸ read, rfl⟩
  · have read := Literal.decimal?_digits (Digits.ofNat_ne_nil coefficient) digit
      (exponent?_exponentChars exponent)
    rw [number] at read
    exact ⟨_, text ▸ read, rfl⟩

/-! ## Characters -/

theorem inLexeme_of_decimal? {text : List Char} (read : (Literal.decimal? text).isSome = true) :
    ∀ c ∈ text, InLexeme c := by
  obtain ⟨mantissa, tail, rfl, hmantissa, htail⟩ := Literal.decimal?_isSome_iff.1 read
  intro c hc
  obtain hc | hc := List.mem_append.1 hc
  · obtain digit | rfl := hmantissa.mem hc
    · exact inLexeme_of_isDigit digit
    · exact inLexeme_of_mem (by decide)
  · obtain digit | (rfl | rfl) | rfl | rfl := htail.mem hc
    · exact inLexeme_of_isDigit digit
    · exact inLexeme_of_mem (by decide)
    · exact inLexeme_of_mem (by decide)
    · exact inLexeme_of_mem (by decide)
    · exact inLexeme_of_mem (by decide)

/-- The numbers that JSON has a text for: integers of 64 bits and finite floats. -/
inductive Representable : Number → Prop
  | integer {value : Int} (fits : Fits value) : Representable (.integer value)
  | real {x : Float} {negative : Bool} {magnitude : Nat}
      (finite : Binary64.view x = .finite negative magnitude) : Representable (.real x)

theorem decimal?_ofNat (n : Nat) : Literal.decimal? (Digits.ofNat n) = some ⟨n, 0⟩ := by
  rw [Literal.decimal?_whole (Digits.ofNat_ne_nil n) (Digits.allDigits_ofNat n),
    Digits.toNat_ofNat]

/-- The digits of a finite float behind its sign. -/
def floatText (magnitude : Nat) : List Char :=
  if magnitude = 0 then ['0', '.', '0'] else decimalChars (Decimal.ofBits magnitude)

theorem realChars_eq {x : Float} {negative : Bool} {magnitude : Nat}
    (finite : Binary64.view x = .finite negative magnitude) :
    realChars x = Reckoner.Number.signText negative ++ floatText magnitude := by
  rw [realChars, finite]
  rfl

theorem decimal?_floatText (magnitude : Nat) :
    (Literal.decimal? (floatText magnitude)).isSome = true := by
  rw [floatText]
  split
  · decide
  · obtain ⟨e, read, -⟩ := decimal?_decimalChars (Decimal.ofBits magnitude)
    simp [read]

/-- A number is written as a decimal behind its sign, unless it is written as null. -/
theorem chars_cases (n : Number) :
    (n.chars = "null".toList ∧ ¬ n.Representable) ∨
      ∃ negative text, n.chars = Reckoner.Number.signText negative ++ text ∧
        (Literal.decimal? text).isSome = true := by
  cases n with
  | integer value =>
    have read := decimal?_ofNat value.natAbs
    refine .inr ⟨decide (value < 0), Digits.ofNat value.natAbs, ?_, by simp [read]⟩
    simp [chars, Reckoner.Number.signText]
  | real x =>
    cases view : Binary64.view x with
    | finite negative magnitude =>
      exact .inr ⟨negative, _, realChars_eq view, decimal?_floatText magnitude⟩
    | nan | infinite negative =>
      refine .inl ⟨by simp [chars, realChars, view], ?_⟩
      rintro (_ | finite)
      simp [view] at finite

theorem inLexeme_chars (n : Number) : ∀ c ∈ n.chars, InLexeme c := by
  obtain ⟨text, -⟩ | ⟨negative, text, written, read⟩ := n.chars_cases
  · rw [text]
    exact inLexeme_of_word (by simp)
  · rw [written]
    intro c hc
    obtain hc | hc := List.mem_append.1 hc
    · have sign : c = '-' := by
        cases negative with
        | false => simp [Reckoner.Number.signText] at hc
        | true => simpa [Reckoner.Number.signText] using hc
      exact inLexeme_of_mem (by rw [sign]; decide)
    · exact inLexeme_of_decimal? read c hc

theorem chars_ne_nil (n : Number) : n.chars ≠ [] := by
  obtain ⟨text, -⟩ | ⟨negative, text, written, read⟩ := n.chars_cases
  · rw [text]
    decide
  · rw [written]
    rintro nothing
    rw [(List.append_eq_nil_iff.1 nothing).2] at read
    exact absurd read (by decide)

/-- The text of a number is none of the words of JSON. -/
theorem Representable.ofLexeme? {n : Number} (has : n.Representable) (numbers : Reader) :
    Leaf.ofLexeme? numbers n.chars = (numbers n.chars).map Leaf.number := by
  have words : ∀ word ∈ ["null", "true", "false"],
      word.toList.head? ≠ some '-' ∧ Literal.decimal? word.toList = none := by decide
  have ne_word : ∀ word ∈ ["null", "true", "false"], n.chars ≠ word.toList := by
    intro word member same
    obtain ⟨unsigned, unread⟩ := words word member
    obtain ⟨-, lacks⟩ | ⟨negative, text, written, read⟩ := n.chars_cases
    · exact lacks has
    · rw [← same, written] at unsigned unread
      cases negative with
      | false => exact Option.isSome_iff_ne_none.1 read unread
      | true => simp [Reckoner.Number.signText] at unsigned
  rw [Leaf.ofLexeme?, if_neg (ne_word _ (by simp)), if_neg (ne_word _ (by simp)),
    if_neg (ne_word _ (by simp))]

/-! ## Reading back -/

/-- A reading gives every number back that has a text. -/
def Lossless (numbers : Reader) : Prop :=
  ∀ n, n.Representable → numbers n.chars = some (some n)

/-- Reads what shows a point or an exponent as the nearest float, and all else like `ofLexeme?`. -/
def nearest : Reader := fun lexeme =>
  if '.' ∈ lexeme ∨ 'e' ∈ lexeme then (Literal.read? lexeme).map fun x => some (.real x)
  else ofLexeme? lexeme

theorem unsigned?_floatText {magnitude : Nat} (finite : magnitude < Binary64.infinityBits) :
    Literal.unsigned? (floatText magnitude) = some (Binary64.ofMagnitude magnitude) := by
  rw [floatText]
  split
  · next zero =>
    rw [zero, Literal.unsigned?_of_decimal?
      (show Literal.decimal? ['0', '.', '0'] = some ⟨0, -1⟩ by decide), Decimal.toFloat,
      Decimal.toBits_of_coefficient_zero]
  · obtain ⟨e, read, value⟩ := decimal?_decimalChars (Decimal.ofBits magnitude)
    rw [Literal.unsigned?_of_decimal? read, Decimal.toFloat, Decimal.toBits_congr value,
      Decimal.toBits_ofBits finite]

theorem mark_mem_decimalChars (d : Decimal) : '.' ∈ decimalChars d ∨ 'e' ∈ decimalChars d := by
  obtain ⟨-, text⟩ | ⟨fine, text⟩ | ⟨first, more, -, text⟩ | text := decimalChars_cases d
  · simp [text]
  · obtain ⟨coefficient, exponent⟩ := d
    obtain ⟨k, rfl⟩ := Int.eq_negSucc_of_lt_zero fine
    obtain ⟨whole, places, positional, -⟩ := Decimal.positional_negSucc coefficient k
    simp [text, positional]
  · simp [text]
  · simp [text, exponentChars]

theorem mark_mem_floatText (magnitude : Nat) :
    '.' ∈ floatText magnitude ∨ 'e' ∈ floatText magnitude := by
  rw [floatText]
  split
  · simp
  · exact mark_mem_decimalChars _

theorem mark_not_mem_integer (value : Int) :
    ¬ ('.' ∈ (integer value).chars ∨ 'e' ∈ (integer value).chars) := by
  have digit := Digits.allDigits_ofNat value.natAbs
  have only : ∀ c ∈ (integer value).chars, c = '-' ∨ c.isDigit = true := by
    intro c hc
    rw [chars] at hc
    obtain hc | hc := List.mem_append.1 hc
    · split at hc
      · exact .inl (List.mem_singleton.1 hc)
      · cases hc
    · exact .inr (digit c hc)
  rintro (point | exponent)
  · exact absurd (only '.' point) (by decide)
  · exact absurd (only 'e' exponent) (by decide)

/-- There is a reading that loses nothing. -/
theorem lossless_nearest : Lossless nearest := by
  intro n has
  cases has with
  | @integer value fits => rw [nearest, if_neg (mark_not_mem_integer value), ofLexeme?_integer fits]
  | @real x negative magnitude finite =>
    have back := Binary64.toFloat_view x
    rw [finite] at back
    have read := Reckoner.Number.read?_signText negative
      (unsigned?_floatText (Binary64.finite_of_view finite))
    have marked : '.' ∈ realChars x ∨ 'e' ∈ realChars x := by
      rw [realChars_eq finite]
      obtain h | h := mark_mem_floatText magnitude
      · exact .inl (List.mem_append_right _ h)
      · exact .inr (List.mem_append_right _ h)
    rw [chars, nearest, if_pos marked, realChars_eq finite, read]
    exact congrArg (fun x => some (some (Number.real x))) back

end Reckoner.Json.Number
