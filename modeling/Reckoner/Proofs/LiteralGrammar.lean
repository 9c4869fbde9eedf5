import Mathlib.Data.Nat.Digits.Defs
import Reckoner.Proofs.Floats
import Reckoner.Proofs.Literals
import Reckoner.Proofs.Nearest

/-! # The grammar of literals

`Reads` says which texts are literals and which float each of them stands for, without reading them: a
decimal writes a rational number, and its float has the sign that is written and the magnitude that
the number rounds to.  `parse` gives exactly these floats and refuses every other text as it stands
(`parse_iff_reads`).  So does a reader that knows more spellings behind a few filters
(`filtered_eq`).
-/

namespace Reckoner

namespace Digits

/-- The number that digits write, the last digit being worth one. -/
def written (digits : List Char) : Nat :=
  Nat.ofDigits 10 (digits.reverse.map fun c => c.toNat - '0'.toNat)

theorem toNat_eq_written (digits : List Char) : toNat digits = written digits := by
  induction digits using List.reverseRecOn with
  | nil => rfl
  | append_singleton digits c ih =>
    rw [toNat_append_singleton, ih, written, written, List.reverse_concat, List.map_cons,
      Nat.ofDigits_cons, Nat.add_comm]

/-- The digits behind make those in front worth more. -/
theorem written_append (front back : List Char) :
    written (front ++ back) = written front * 10 ^ back.length + written back := by
  rw [written, List.reverse_append, List.map_append, Nat.ofDigits_append, List.length_map,
    List.length_reverse, Nat.add_comm, Nat.mul_comm]
  rfl

end Digits

/-! ## Signed floats -/

namespace Binary64

/-- What a sign adds to the pattern of a magnitude. -/
def signPattern (negative : Bool) : Nat :=
  if negative then signBit else 0

/-- A float behind a sign. -/
def signed (negative : Bool) (x : Float) : Float :=
  if negative then -x else x

theorem toBits_eq_iff {v : Float} {bits : Nat} (ordered : bits ≤ infinityBits) (negative : Bool) :
    v.toBits.toNat = signPattern negative + bits ↔ v = signed negative (ofMagnitude bits) := by
  have pattern : (signed negative (ofMagnitude bits)).toBits.toNat = signPattern negative + bits := by
    cases negative with
    | false => simpa [signed, signPattern] using toNat_toBits_ofMagnitude ordered
    | true => simpa [signed, signPattern] using toNat_toBits_neg_ofMagnitude ordered
  constructor
  · intro same
    exact eq_of_toNat_toBits (same.trans pattern.symm)
  · rintro rfl
    exact pattern

theorem view_eq_nan_iff {v : Float} : view v = .nan ↔ v = Literal.nan := by
  constructor
  · intro unread
    rw [← toFloat_view v, unread]
    rfl
  · rintro rfl
    decide +kernel

theorem signed_nan (negative : Bool) : signed negative Literal.nan = Literal.nan := by
  cases negative with
  | false => rfl
  | true =>
    apply Float.toBits_inj.1
    decide +kernel

end Binary64

namespace Literal

open Binary64 (Rounds infinityBits signPattern signed view)

/-! ## What a literal stands for -/

/-- A sign or none, and whether it negates. -/
inductive Sign : List Char → Bool → Prop
  | none : Sign [] false
  | plus : Sign ['+'] false
  | minus : Sign ['-'] true

/-- The number that digits write, the digits behind a point being worth less than one. -/
inductive MantissaOf : List Char → ℚ → Prop
  | whole {digits : List Char} (nonempty : digits ≠ []) (digit : AllDigits digits) :
      MantissaOf digits (Digits.written digits)
  | point {digits places : List Char} (nonempty : digits ≠ [] ∨ places ≠ [])
      (digit : AllDigits digits) (place : AllDigits places) :
      MantissaOf (digits ++ '.' :: places)
        (Digits.written digits + Digits.written places / 10 ^ places.length)

/-- The power of ten that is written behind a mantissa. -/
inductive ExponentOf : List Char → ℤ → Prop
  | none : ExponentOf [] 0
  | some {mark : Char} {sign digits : List Char} {negative : Bool} (isMark : IsMark mark)
      (isSign : Sign sign negative) (nonempty : digits ≠ []) (digit : AllDigits digits) :
      ExponentOf (mark :: (sign ++ digits))
        (if negative then -(Digits.written digits) else Digits.written digits)

/-- The float that a literal stands for. -/
inductive Reads : List Char → Float → Prop
  | infinity {sign : List Char} {negative : Bool} {v : Float} (isSign : Sign sign negative)
      (pattern : v.toBits.toNat = signPattern negative + infinityBits) :
      Reads (sign ++ "Infinity".toList) v
  | nan {sign : List Char} {negative : Bool} {v : Float} (isSign : Sign sign negative)
      (pattern : view v = .nan) : Reads (sign ++ "NaN".toList) v
  | decimal {sign mantissa tail : List Char} {negative : Bool} {q : ℚ} {e : ℤ} {bits : Nat}
      {v : Float} (isSign : Sign sign negative) (isMantissa : MantissaOf mantissa q)
      (isExponent : ExponentOf tail e) (rounded : Rounds (q * 10 ^ e) bits)
      (pattern : v.toBits.toNat = signPattern negative + bits) :
      Reads (sign ++ (mantissa ++ tail)) v

/-- The texts that are literals, whatever they stand for. -/
inductive IsLiteral : List Char → Prop
  | infinity {sign : List Char} {negative : Bool} (isSign : Sign sign negative) :
      IsLiteral (sign ++ "Infinity".toList)
  | nan {sign : List Char} {negative : Bool} (isSign : Sign sign negative) :
      IsLiteral (sign ++ "NaN".toList)
  | decimal {sign mantissa tail : List Char} {negative : Bool} (isSign : Sign sign negative)
      (isMantissa : Mantissa mantissa) (isExponent : Exponent tail) :
      IsLiteral (sign ++ (mantissa ++ tail))

theorem mantissa_iff {text : List Char} : Mantissa text ↔ ∃ q, MantissaOf text q := by
  constructor
  · intro h
    cases h with
    | whole nonempty digit => exact ⟨_, .whole nonempty digit⟩
    | point nonempty digit place => exact ⟨_, .point nonempty digit place⟩
  · rintro ⟨q, h⟩
    cases h with
    | whole nonempty digit => exact .whole nonempty digit
    | point nonempty digit place => exact .point nonempty digit place

theorem natural?_digits {digits : List Char} (nonempty : digits ≠ []) (digit : AllDigits digits) :
    natural? digits = some (Digits.written digits) := by
  rw [natural?, if_pos ⟨nonempty, List.all_eq_true.2 digit⟩, Digits.toNat_eq_written]

theorem exponent?_of {tail : List Char} {e : ℤ} (h : ExponentOf tail e) :
    exponent? tail = some e := by
  cases h with
  | none => rfl
  | some isMark isSign nonempty digit =>
    rw [exponent?, if_pos (show _ = 'e' ∨ _ = 'E' from isMark)]
    cases isSign with
    | none =>
      rw [List.nil_append, integer?_of_digits digit, natural?_digits nonempty digit]
      rfl
    | plus | minus => simp [integer?, natural?_digits nonempty digit]

theorem exponent_iff {tail : List Char} : Exponent tail ↔ ∃ e, ExponentOf tail e := by
  constructor
  · intro h
    cases h with
    | none => exact ⟨0, .none⟩
    | unsigned isMark nonempty digit => exact ⟨_, .some isMark .none nonempty digit⟩
    | signed isMark isSign nonempty digit =>
      obtain rfl | rfl := isSign
      · exact ⟨_, .some isMark .plus nonempty digit⟩
      · exact ⟨_, .some isMark .minus nonempty digit⟩
  · rintro ⟨e, h⟩
    exact exponent?_isSome_iff.1 (Option.isSome_of_eq_some (exponent?_of h))

/-! ## Decimals -/

/-- A decimal is read with the value that it writes. -/
theorem decimal?_of {mantissa tail : List Char} {q : ℚ} {e : ℤ} (isMantissa : MantissaOf mantissa q)
    (isExponent : ExponentOf tail e) :
    ∃ d, decimal? (mantissa ++ tail) = some d ∧ d.value = q * 10 ^ e := by
  have exponent := exponent?_of isExponent
  cases isMantissa with
  | whole nonempty digit =>
    refine ⟨_, decimal?_digits nonempty digit exponent, ?_⟩
    rw [Decimal.value, Digits.toNat_eq_written]
  | @point digits places nonempty digit place =>
    refine ⟨_, by simpa using decimal?_point nonempty digit place exponent, ?_⟩
    -- The places are read as more digits of the coefficient and divided off by the exponent.
    have ten : (10 : ℚ) ^ places.length ≠ 0 := pow_ne_zero _ (by norm_num)
    rw [Decimal.value, Digits.toNat_eq_written, Digits.written_append, zpow_sub₀ (by norm_num),
      zpow_natCast]
    push_cast
    field_simp

theorem exists_of_decimal? {text : List Char} {d : Decimal} (h : decimal? text = some d) :
    ∃ mantissa tail q e, text = mantissa ++ tail ∧ MantissaOf mantissa q ∧ ExponentOf tail e ∧
      d.value = q * 10 ^ e := by
  obtain ⟨mantissa, tail, rfl, hmantissa, htail⟩ :=
    decimal?_isSome_iff.1 (Option.isSome_of_eq_some h)
  obtain ⟨q, isMantissa⟩ := mantissa_iff.1 hmantissa
  obtain ⟨e, isExponent⟩ := exponent_iff.1 htail
  obtain ⟨other, read, value⟩ := decimal?_of isMantissa isExponent
  rw [h, Option.some_inj] at read
  exact ⟨mantissa, tail, q, e, rfl, isMantissa, isExponent, read ▸ value⟩

/-! ## Literals -/

theorem unsigned?_eq_some_iff {text : List Char} {x : Float} : unsigned? text = some x ↔
    (text = infinityWord ∧ x = infinity) ∨ (text = nanWord ∧ x = nan) ∨
      ∃ d, decimal? text = some d ∧ x = d.toFloat := by
  constructor
  · intro h
    unfold unsigned? at h
    split at h
    · next word => exact .inl ⟨word, (Option.some_inj.1 h).symm⟩
    · split at h
      · next word => exact .inr (.inl ⟨word, (Option.some_inj.1 h).symm⟩)
      · obtain ⟨d, read, rfl⟩ := Option.map_eq_some_iff.1 h
        exact .inr (.inr ⟨d, read, rfl⟩)
  · rintro (⟨rfl, rfl⟩ | ⟨rfl, rfl⟩ | ⟨d, read, rfl⟩)
    · rfl
    · rfl
    · exact unsigned?_of_decimal? read

theorem read?_of_sign {sign body : List Char} {negative : Bool} {x : Float}
    (isSign : Sign sign negative) (read : unsigned? body = some x) :
    read? (sign ++ body) = some (signed negative x) := by
  cases isSign with
  -- Without a sign in front, no sign may be taken off.
  | none => exact (read?_of_head (head_of_isSome (Option.isSome_of_eq_some read))).trans read
  | plus => exact read
  | minus => simp [read?, read, signed]

theorem exists_of_read? {text : List Char} {v : Float} (h : read? text = some v) :
    ∃ sign body negative x, text = sign ++ body ∧ Sign sign negative ∧ unsigned? body = some x ∧
      v = signed negative x := by
  unfold read? at h
  split at h
  · next body =>
    obtain ⟨x, read, rfl⟩ := Option.map_eq_some_iff.1 h
    exact ⟨['-'], body, true, x, rfl, .minus, read, rfl⟩
  · next body => exact ⟨['+'], body, false, v, rfl, .plus, h, rfl⟩
  · exact ⟨[], text, false, v, rfl, .none, h, rfl⟩

theorem parse_eq_ok_iff {text : List Char} {v : Float} : parse text = .ok v ↔ read? text = some v := by
  rw [parse]
  cases read? text <;> simp

theorem parse_eq_error_iff {text : List Char} {fault : Fault} : parse text = .error fault ↔
    read? text = none ∧ fault = .invalidNumber (String.ofList text) := by
  rw [parse]
  cases read? text <;> simp [eq_comm]

/-- The pattern of a decimal behind a sign is the one that its value rounds to. -/
theorem pattern_iff {d : Decimal} {bits : Nat} {v : Float} (negative : Bool)
    (rounded : Rounds d.value bits) :
    v.toBits.toNat = signPattern negative + bits ↔ v = signed negative d.toFloat := by
  have same : bits = d.toBits := rounded.unique d.rounds_toBits
  rw [Binary64.toBits_eq_iff rounded.ordered, same]
  rfl

theorem reads_iff {text : List Char} {v : Float} : Reads text v ↔ read? text = some v := by
  constructor
  · intro h
    cases h with
    | infinity isSign pattern =>
      rw [read?_of_sign isSign rfl, (Binary64.toBits_eq_iff le_rfl _).1 pattern]
      rfl
    | @nan _ negative _ isSign pattern =>
      rw [read?_of_sign isSign (x := nan) rfl, Binary64.view_eq_nan_iff.1 pattern,
        Binary64.signed_nan]
    | decimal isSign isMantissa isExponent rounded pattern =>
      obtain ⟨d, read, value⟩ := decimal?_of isMantissa isExponent
      rw [← value] at rounded
      rw [read?_of_sign isSign (unsigned?_of_decimal? read), (pattern_iff _ rounded).1 pattern]
  · intro h
    obtain ⟨sign, body, negative, x, rfl, isSign, read, rfl⟩ := exists_of_read? h
    obtain ⟨rfl, rfl⟩ | ⟨rfl, rfl⟩ | ⟨d, decimal, rfl⟩ := unsigned?_eq_some_iff.1 read
    · exact .infinity isSign ((Binary64.toBits_eq_iff le_rfl _).2 rfl)
    · exact .nan isSign (Binary64.view_eq_nan_iff.2 (Binary64.signed_nan negative))
    · obtain ⟨mantissa, tail, q, e, rfl, isMantissa, isExponent, value⟩ :=
        exists_of_decimal? decimal
      have rounded := d.rounds_toBits
      have pattern := (pattern_iff negative rounded).2 rfl
      exact .decimal isSign isMantissa isExponent (value ▸ rounded) pattern

theorem isLiteral_iff {text : List Char} : IsLiteral text ↔ ∃ v, read? text = some v := by
  constructor
  · intro h
    cases h with
    | infinity isSign => exact ⟨_, read?_of_sign isSign rfl⟩
    | nan isSign => exact ⟨_, read?_of_sign isSign rfl⟩
    | decimal isSign isMantissa isExponent =>
      obtain ⟨d, read⟩ := Option.isSome_iff_exists.1 (decimal?_isSome_of isMantissa isExponent)
      exact ⟨_, read?_of_sign isSign (unsigned?_of_decimal? read)⟩
  · rintro ⟨v, h⟩
    obtain ⟨sign, body, negative, x, rfl, isSign, read, -⟩ := exists_of_read? h
    obtain rfl | rfl | decimal := unsigned?_isSome_iff.1 (Option.isSome_of_eq_some read)
    · exact .infinity isSign
    · exact .nan isSign
    · obtain ⟨mantissa, tail, rfl, isMantissa, isExponent⟩ := decimal?_isSome_iff.1 decimal
      exact .decimal isSign isMantissa isExponent

/-! ## Filters in front of a reader of more spellings -/

/-- The sign in front, and what follows it. -/
def splitSign : List Char → Bool × List Char
  | '-' :: text => (true, text)
  | '+' :: text => (false, text)
  | text => (false, text)

/-- The value under a reader that takes the words in either case, and `inf` for one of them. -/
def spelled? (text : List Char) : Option Float :=
  let (negative, body) := splitSign text
  let lower := body.map Char.toLower
  let magnitude :=
    if lower = "inf".toList ∨ lower = "infinity".toList then some infinity
    else if lower = "nan".toList then some nan
    else (decimal? body).map Decimal.toFloat
  magnitude.map (signed negative)

/-- A digit or a point stands in front. -/
def startsDecimal (text : List Char) : Bool :=
  text.head?.any fun c => c.isDigit || c = '.'

/-- The characters of signed decimals. -/
def isPlain (c : Char) : Bool :=
  c.isDigit || c ∈ ['.', 'e', 'E', '+', '-']

/-- Reads the two words as they are spelled here, and of all other texts only those that look like
decimals. -/
def filtered (text : List Char) : Except Fault Float :=
  let (negative, body) := splitSign text
  if body = infinityWord then .ok (signed negative infinity)
  else if body = nanWord then .ok nan
  else if !startsDecimal body then .error (.invalidNumber (String.ofList text))
  else if !text.all isPlain then .error (.invalidNumber (String.ofList text))
  else
    match spelled? text with
    | some v => .ok v
    | none => .error (.invalidNumber (String.ofList text))

theorem sign_splitSign (text : List Char) :
    ∃ sign, text = sign ++ (splitSign text).2 ∧ Sign sign (splitSign text).1 := by
  unfold splitSign
  split
  · exact ⟨['-'], rfl, .minus⟩
  · exact ⟨['+'], rfl, .plus⟩
  · exact ⟨[], rfl, .none⟩

theorem read?_eq_splitSign (text : List Char) :
    read? text = (unsigned? (splitSign text).2).map (signed (splitSign text).1) := by
  obtain ⟨sign, whole, isSign⟩ := sign_splitSign text
  cases read : unsigned? (splitSign text).2 with
  | some x =>
    have signed := read?_of_sign isSign read
    rwa [← whole] at signed
  | none =>
    unfold splitSign at read
    split at read
    · exact congrArg (Option.map _) read
    · exact read
    · next other noMinus noPlus =>
      have unsigned : ∀ c ∈ text.head?, c ≠ '+' ∧ c ≠ '-' := by
        intro c first
        obtain ⟨rest, rfl⟩ := List.head?_eq_some_iff.1 first
        constructor
        · rintro rfl
          exact noPlus rest rfl
        · rintro rfl
          exact noMinus rest rfl
      exact (read?_of_head unsigned).trans read

theorem startsDecimal_of_isSome {text : List Char} (h : (decimal? text).isSome = true) :
    startsDecimal text = true := by
  obtain ⟨mantissa, tail, rfl, isMantissa, -⟩ := decimal?_isSome_iff.1 h
  obtain ⟨c, rest, rfl⟩ := List.exists_cons_of_ne_nil isMantissa.ne_nil
  simpa [startsDecimal] using isMantissa.mem (List.mem_cons_self ..)

theorem isPlain_of_isSome {sign text : List Char} {negative : Bool} (isSign : Sign sign negative)
    (h : (decimal? text).isSome = true) : (sign ++ text).all isPlain = true := by
  obtain ⟨mantissa, tail, rfl, isMantissa, isExponent⟩ := decimal?_isSome_iff.1 h
  have plain_sign : ∀ c ∈ sign, isPlain c = true := by
    cases isSign <;> simp [isPlain]
  have plain_mantissa : ∀ c ∈ mantissa, isPlain c = true := by
    intro c hc
    obtain digit | rfl := isMantissa.mem hc
    · simp [isPlain, digit]
    · rfl
  have plain_tail : ∀ c ∈ tail, isPlain c = true := by
    intro c hc
    obtain digit | (rfl | rfl) | rfl | rfl := isExponent.mem hc
    · simp [isPlain, digit]
    all_goals rfl
  simp only [List.all_append, Bool.and_eq_true, List.all_eq_true]
  exact ⟨plain_sign, plain_mantissa, plain_tail⟩

theorem range_of_isDigit {c : Char} (digit : c.isDigit = true) : 48 ≤ c.toNat ∧ c.toNat ≤ 57 := by
  simp only [Char.isDigit, Bool.and_eq_true, decide_eq_true_eq, UInt32.le_iff_toNat_le] at digit
  exact digit

theorem toLower_of_isDigit {c : Char} (digit : c.isDigit = true) : c.toLower = c := by
  rw [Char.toLower, dif_neg]
  rintro ⟨letter, -⟩
  have high : 65 ≤ c.toNat := UInt32.le_iff_toNat_le.1 letter
  have low := (range_of_isDigit digit).2
  omega

/-- Behind the filters no other spelling is left. -/
theorem spelled?_of_startsDecimal (text : List Char)
    (starts : startsDecimal (splitSign text).2 = true) : spelled? text =
      (decimal? (splitSign text).2).map fun d => signed (splitSign text).1 d.toFloat := by
  unfold spelled?
  generalize splitSign text = split at starts ⊢
  obtain ⟨negative, body⟩ := split
  cases body with
  | nil => simp [startsDecimal] at starts
  | cons c rest =>
    -- In either case, the words begin with one of two letters.
    have first : c.toLower ≠ 'i' ∧ c.toLower ≠ 'n' := by
      simp only [startsDecimal, List.head?_cons, Option.any_some, Bool.or_eq_true,
        decide_eq_true_eq] at starts
      obtain digit | rfl := starts
      · rw [toLower_of_isDigit digit]
        constructor <;> rintro rfl <;> simp at digit
      · decide
    simp [first]
    rfl

theorem filtered_eq (text : List Char) : filtered text = parse text := by
  obtain ⟨sign, whole, isSign⟩ := sign_splitSign text
  have spelled := spelled?_of_startsDecimal text
  rw [parse, read?_eq_splitSign, filtered]
  generalize splitSign text = parts at *
  obtain ⟨negative, body⟩ := parts
  dsimp only at *
  by_cases infinite : body = infinityWord
  · simp [infinite, unsigned?]
  by_cases unread : body = nanWord
  · have word : infinityWord ≠ nanWord := by decide
    simp [unread, unsigned?, word.symm, Binary64.signed_nan]
  rw [unsigned?, if_neg infinite, if_neg unread, if_neg infinite, if_neg unread]
  cases decimal : decimal? body with
  | some d =>
    -- The filters let every decimal pass.
    have isSome : (decimal? body).isSome = true := Option.isSome_of_eq_some decimal
    have starts := startsDecimal_of_isSome isSome
    have plain : text.all isPlain = true := whole ▸ isPlain_of_isSome isSign isSome
    simp [starts, plain, spelled starts, decimal]
  | none =>
    cases starts : startsDecimal body with
    | false => simp
    | true => simp [spelled starts, decimal]

/-- A text is read exactly when it is a literal, with the float that the literal stands for, and
every other text is named as it stands in its fault. -/
theorem parse_iff_reads (text : String) :
    (∀ v, parse text.toList = .ok v ↔ Reads text.toList v) ∧
      ((∃ v, parse text.toList = .ok v) ↔ IsLiteral text.toList) ∧
      (parse text.toList = .error (.invalidNumber text) ↔ ¬ IsLiteral text.toList) ∧
      filtered text.toList = parse text.toList := by
  have accepted : ∀ v, parse text.toList = .ok v ↔ Reads text.toList v := fun v =>
    parse_eq_ok_iff.trans reads_iff.symm
  have literal : (∃ v, parse text.toList = .ok v) ↔ IsLiteral text.toList := by
    rw [isLiteral_iff]
    exact exists_congr fun v => parse_eq_ok_iff
  have refused : parse text.toList = .error (.invalidNumber text) ↔ ¬ IsLiteral text.toList := by
    rw [parse_eq_error_iff, isLiteral_iff, String.ofList_toList, Option.eq_none_iff_forall_ne_some]
    simp
  exact ⟨accepted, literal, refused, filtered_eq text.toList⟩

end Literal
end Reckoner
