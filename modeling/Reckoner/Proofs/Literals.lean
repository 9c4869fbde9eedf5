import Mathlib.Data.List.TakeWhile
import Reckoner.Number.Literal
import Reckoner.Proofs.Parentheses

/-! # The shape of a literal

A decimal literal is a mantissa and, behind it, nothing or an exponent; `decimal?_isSome_iff` says
that exactly these texts are read.  From the shape follows what a literal looks like from outside:
its signs stand behind the mark of an exponent (`mark_before_sign`), it holds nothing that groups or
separates, and what is typed of it so far is a literal or waits for more
(`decimal_typed`).
-/

namespace Reckoner.Literal

open Fault (isIncompleteText awaitsMore startsLiteral)
open Text (append_cons_cases prefix_append_cases)

/-! ## Mantissa and exponent -/

def AllDigits (text : List Char) : Prop :=
  ∀ c ∈ text, c.isDigit = true

/-- The mark of an exponent. -/
def IsMark (c : Char) : Prop :=
  c = 'e' ∨ c = 'E'

/-- Digits, or digits around a point, at least one in all. -/
inductive Mantissa : List Char → Prop
  | whole {digits : List Char} (nonempty : digits ≠ []) (digit : AllDigits digits) :
      Mantissa digits
  | point {digits places : List Char} (nonempty : digits ≠ [] ∨ places ≠ [])
      (digit : AllDigits digits) (place : AllDigits places) : Mantissa (digits ++ '.' :: places)

/-- Nothing, or a mark, a sign or none, and digits. -/
inductive Exponent : List Char → Prop
  | none : Exponent []
  | unsigned {mark : Char} {digits : List Char} (isMark : IsMark mark) (nonempty : digits ≠ [])
      (digit : AllDigits digits) : Exponent (mark :: digits)
  | signed {mark sign : Char} {digits : List Char} (isMark : IsMark mark)
      (isSign : sign = '+' ∨ sign = '-') (nonempty : digits ≠ []) (digit : AllDigits digits) :
      Exponent (mark :: sign :: digits)

theorem AllDigits.of_prefix {text front : List Char} (h : AllDigits text)
    (hfront : front <+: text) : AllDigits front := fun c hc => h c (hfront.subset hc)

theorem IsMark.not_isDigit {c : Char} (h : IsMark c) : c.isDigit = false := by
  obtain rfl | rfl := h <;> decide

theorem natural?_isSome_iff {text : List Char} :
    (natural? text).isSome = true ↔ text ≠ [] ∧ AllDigits text := by
  unfold natural?
  split
  · next h => simpa [AllDigits] using h
  · next h => simpa [AllDigits] using h

theorem integer?_of_digits {text : List Char} (digit : AllDigits text) :
    integer? text = (natural? text).map Int.ofNat := by
  unfold integer?
  split
  · exact absurd (digit '+' (by simp)) (by decide)
  · exact absurd (digit '-' (by simp)) (by decide)
  · rfl

theorem integer?_isSome_of {text : List Char} (nonempty : text ≠ []) (digit : AllDigits text) :
    (integer? text).isSome = true := by
  rw [integer?_of_digits digit, Option.isSome_map]
  exact natural?_isSome_iff.2 ⟨nonempty, digit⟩

theorem exponent?_isSome_iff {text : List Char} :
    (exponent? text).isSome = true ↔ Exponent text := by
  constructor
  · intro h
    match text with
    | [] => exact .none
    | mark :: rest =>
      rw [exponent?] at h
      split at h
      · next isMark =>
        unfold integer? at h
        split at h
        · obtain ⟨nonempty, digit⟩ := natural?_isSome_iff.1 (by simpa using h)
          exact .signed isMark (.inl rfl) nonempty digit
        · obtain ⟨nonempty, digit⟩ := natural?_isSome_iff.1 (by simpa using h)
          exact .signed isMark (.inr rfl) nonempty digit
        · obtain ⟨nonempty, digit⟩ := natural?_isSome_iff.1 (by simpa using h)
          exact .unsigned isMark nonempty digit
      · simp at h
  · intro h
    cases h with
    | none => rfl
    | unsigned isMark nonempty digit =>
      simpa [exponent?, show _ = 'e' ∨ _ = 'E' from isMark] using integer?_isSome_of nonempty digit
    | signed isMark isSign nonempty digit =>
      have hnatural := natural?_isSome_iff.2 ⟨nonempty, digit⟩
      obtain rfl | rfl := isSign <;>
        simpa [exponent?, show _ = 'e' ∨ _ = 'E' from isMark, integer?] using hnatural

/-! ## Decimals -/

theorem allDigits_takeWhile (text : List Char) : AllDigits (text.takeWhile Char.isDigit) :=
  fun _ hc => List.mem_takeWhile_imp hc

/-- An exponent neither goes on with digits nor with a point. -/
theorem Exponent.head_not_isDigit {tail : List Char} (h : Exponent tail) :
    ∀ c rest, tail = c :: rest → c.isDigit = false ∧ c ≠ '.' := by
  have hmark : ∀ mark, IsMark mark → mark.isDigit = false ∧ mark ≠ '.' := by
    rintro mark (rfl | rfl) <;> decide
  rintro c rest rfl
  cases h with
  | unsigned isMark => exact hmark c isMark
  | signed isMark => exact hmark c isMark

theorem span_digits {digits rest : List Char} (digit : AllDigits digits)
    (hrest : ∀ c back, rest = c :: back → c.isDigit = false) :
    (digits ++ rest).takeWhile Char.isDigit = digits ∧
      (digits ++ rest).dropWhile Char.isDigit = rest := by
  rw [List.takeWhile_append_of_pos digit, List.dropWhile_append_of_pos digit]
  cases rest with
  | nil => simp
  | cons c back => simp [hrest c back rfl]

/-- Digits without a point are read whole. -/
theorem decimal?_digits {digits tail : List Char} {e : Int} (nonempty : digits ≠ [])
    (digit : AllDigits digits) (exponent : exponent? tail = some e) :
    decimal? (digits ++ tail) = some ⟨Digits.toNat digits, e⟩ := by
  have hhead := (exponent?_isSome_iff.1 (Option.isSome_of_eq_some exponent)).head_not_isDigit
  obtain ⟨htake, hdrop⟩ := span_digits digit fun c back h => (hhead c back h).1
  have hfraction : fraction tail = ([], tail) := by
    unfold fraction
    split
    · next rest => exact absurd rfl (hhead '.' rest rfl).2
    · rfl
  simp [decimal?, htake, hdrop, hfraction, nonempty, exponent]

/-- Each digit behind a point is worth a tenth of the one before it. -/
theorem decimal?_point {digits places tail : List Char} {e : Int}
    (nonempty : digits ≠ [] ∨ places ≠ []) (digit : AllDigits digits) (place : AllDigits places)
    (exponent : exponent? tail = some e) : decimal? (digits ++ '.' :: (places ++ tail)) =
      some ⟨Digits.toNat (digits ++ places), e - places.length⟩ := by
  have hhead := (exponent?_isSome_iff.1 (Option.isSome_of_eq_some exponent)).head_not_isDigit
  have hpoint : ∀ c back, '.' :: (places ++ tail) = c :: back → c.isDigit = false := by
    intro c back h
    rw [← (List.cons.inj h).1]
    decide
  obtain ⟨htake, hdrop⟩ := span_digits digit hpoint
  obtain ⟨hplaces, htail⟩ := span_digits place fun c back h => (hhead c back h).1
  have hfraction : fraction ('.' :: (places ++ tail)) = (places, tail) := by
    rw [fraction, hplaces, htail]
  have hsome : ¬ (digits = [] ∧ places = []) := by
    rintro ⟨rfl, rfl⟩
    simp at nonempty
  simp [decimal?, htake, hdrop, hfraction, hsome, exponent]

theorem decimal?_whole {digits : List Char} (nonempty : digits ≠ []) (digit : AllDigits digits) :
    decimal? digits = some ⟨Digits.toNat digits, 0⟩ := by
  have nothing : exponent? [] = some 0 := rfl
  simpa using decimal?_digits nonempty digit nothing

theorem decimal?_places {digits places : List Char} (nonempty : digits ≠ [])
    (digit : AllDigits digits) (place : AllDigits places) :
    decimal? (digits ++ '.' :: places) =
      some ⟨Digits.toNat (digits ++ places), -places.length⟩ := by
  have nothing : exponent? [] = some 0 := rfl
  simpa using decimal?_point (.inl nonempty) digit place nothing

theorem decimal?_isSome_of {mantissa tail : List Char} (hmantissa : Mantissa mantissa)
    (htail : Exponent tail) : (decimal? (mantissa ++ tail)).isSome = true := by
  obtain ⟨e, exponent⟩ := Option.isSome_iff_exists.1 (exponent?_isSome_iff.2 htail)
  cases hmantissa with
  | whole nonempty digit => rw [decimal?_digits nonempty digit exponent, Option.isSome_some]
  | @point digits places nonempty digit place =>
    rw [List.append_assoc, List.cons_append, decimal?_point nonempty digit place exponent,
      Option.isSome_some]

theorem fraction_cases (rest : List Char) :
    (∃ back, rest = '.' :: back ∧
      fraction rest = (back.takeWhile Char.isDigit, back.dropWhile Char.isDigit)) ∨
    fraction rest = ([], rest) := by
  unfold fraction
  split
  · next back => exact .inl ⟨back, rfl, rfl⟩
  · exact .inr rfl

/-- The texts that are read as an unsigned decimal. -/
theorem decimal?_isSome_iff {text : List Char} : (decimal? text).isSome = true ↔
    ∃ mantissa tail, text = mantissa ++ tail ∧ Mantissa mantissa ∧ Exponent tail := by
  constructor
  · intro h
    have hwhole := allDigits_takeWhile text
    have htext := List.takeWhile_append_dropWhile (p := Char.isDigit) (l := text)
    unfold decimal? at h
    -- From here on the digits and the rest are any two parts of the text.
    generalize text.takeWhile Char.isDigit = digits at *
    generalize text.dropWhile Char.isDigit = rest at *
    subst htext
    obtain ⟨back, rfl, hfraction⟩ | hfraction := fraction_cases rest
    · simp only [hfraction] at h
      split at h
      · simp at h
      · next hsome =>
        have htail := exponent?_isSome_iff.1 (by simpa using h)
        have nonempty : digits ≠ [] ∨ back.takeWhile Char.isDigit ≠ [] := by
          by_cases hdigits : digits = []
          · exact .inr fun hplaces => hsome ⟨hdigits, hplaces⟩
          · exact .inl hdigits
        exact ⟨_, _, by simp, .point nonempty hwhole (allDigits_takeWhile back), htail⟩
    · simp only [hfraction] at h
      split at h
      · simp at h
      · next hsome =>
        have htail := exponent?_isSome_iff.1 (by simpa using h)
        exact ⟨digits, rest, rfl, .whole (fun hdigits => hsome ⟨hdigits, trivial⟩) hwhole, htail⟩
  · rintro ⟨mantissa, tail, rfl, hmantissa, htail⟩
    exact decimal?_isSome_of hmantissa htail

theorem unsigned?_isSome_iff {text : List Char} : (unsigned? text).isSome = true ↔
    text = infinityWord ∨ text = nanWord ∨ (decimal? text).isSome = true := by
  unfold unsigned?
  split
  · next h => simp [h]
  · split
    · next h => simp [h]
    · next hinfinity hnan => simp [hinfinity, hnan]

theorem unsigned?_of_decimal? {text : List Char} {d : Decimal} (h : decimal? text = some d) :
    unsigned? text = some d.toFloat := by
  have no_word : decimal? infinityWord = none ∧ decimal? nanWord = none := by decide
  have hinfinity : text ≠ infinityWord := by
    intro heq
    simp [heq, no_word.1] at h
  have hnan : text ≠ nanWord := by
    intro heq
    simp [heq, no_word.2] at h
  rw [unsigned?, if_neg hinfinity, if_neg hnan, h]
  rfl

/-! ## A literal seen from outside -/

/-- The characters of mantissas. -/
theorem Mantissa.mem {text : List Char} (h : Mantissa text) {c : Char} (hc : c ∈ text) :
    c.isDigit = true ∨ c = '.' := by
  cases h with
  | whole nonempty digit => exact .inl (digit c hc)
  | point nonempty digit place =>
    obtain hc | hc := List.mem_append.1 hc
    · exact .inl (digit c hc)
    · obtain rfl | hc := List.mem_cons.1 hc
      · exact .inr rfl
      · exact .inl (place c hc)

theorem Mantissa.ne_nil {text : List Char} (h : Mantissa text) : text ≠ [] := by
  cases h with
  | whole nonempty => exact nonempty
  | point => simp

theorem Exponent.mem {text : List Char} (h : Exponent text) {c : Char} (hc : c ∈ text) :
    c.isDigit = true ∨ IsMark c ∨ c = '+' ∨ c = '-' := by
  cases h with
  | none => simp at hc
  | unsigned isMark nonempty digit =>
    obtain rfl | hc := List.mem_cons.1 hc
    · exact .inr (.inl isMark)
    · exact .inl (digit c hc)
  | signed isMark isSign nonempty digit =>
    obtain rfl | hc := List.mem_cons.1 hc
    · exact .inr (.inl isMark)
    · obtain rfl | hc := List.mem_cons.1 hc
      · exact .inr (.inr isSign)
      · exact .inl (digit c hc)

theorem not_mem_words {c : Char} (h : c ∈ infinityWord ∨ c ∈ nanWord) :
    c ∉ ['(', ')', ',', '*', '/', '+', '-'] := by
  have words : (infinityWord ++ nanWord).all
      (· ∉ ['(', ')', ',', '*', '/', '+', '-']) = true := by decide
  have := List.all_eq_true.1 words c (List.mem_append.2 h)
  simpa using this

/-- A literal holds nothing that groups, separates or multiplies. -/
theorem not_mem_of_isSome {text : List Char} (h : (unsigned? text).isSome = true) {c : Char}
    (hc : c ∈ text) : c ∉ ['(', ')', ',', '*', '/'] := by
  have isDigit_or : c.isDigit = true ∨ c = '.' ∨ IsMark c ∨ c = '+' ∨ c = '-' →
      c ∉ ['(', ')', ',', '*', '/'] := by
    intro hshape hmem
    simp only [List.mem_cons, List.not_mem_nil, or_false] at hmem
    obtain rfl | rfl | rfl | rfl | rfl := hmem <;> simp [IsMark] at hshape
  obtain rfl | rfl | h := unsigned?_isSome_iff.1 h
  · intro hmem
    exact not_mem_words (.inl hc) (by simp_all)
  · intro hmem
    exact not_mem_words (.inr hc) (by simp_all)
  · obtain ⟨mantissa, tail, rfl, hmantissa, htail⟩ := decimal?_isSome_iff.1 h
    apply isDigit_or
    obtain hc | hc := List.mem_append.1 hc
    · obtain h | h := hmantissa.mem hc
      · exact .inl h
      · exact .inr (.inl h)
    · obtain h | h := htail.mem hc
      · exact .inl h
      · exact .inr (.inr h)

/-- A sign in a literal stands right behind the mark of an exponent. -/
theorem mark_before_sign {text a b : List Char} {c : Char} (h : (unsigned? text).isSome = true)
    (htext : text = a ++ c :: b) (hc : c = '+' ∨ c = '-') :
    ∃ front mark, a = front ++ [mark] ∧ IsMark mark := by
  have hsign : c ∈ ['(', ')', ',', '*', '/', '+', '-'] := by obtain rfl | rfl := hc <;> simp
  have hdigit : c.isDigit = false ∧ c ≠ '.' ∧ ¬ IsMark c := by
    obtain rfl | rfl := hc <;> simp [IsMark]
  obtain rfl | rfl | h := unsigned?_isSome_iff.1 h
  · exact absurd hsign (not_mem_words (.inl (htext ▸ by simp)))
  · exact absurd hsign (not_mem_words (.inr (htext ▸ by simp)))
  · obtain ⟨mantissa, tail, rfl, hmantissa, htail⟩ := decimal?_isSome_iff.1 h
    have hmem : c ∉ mantissa := by
      intro hmem
      obtain h | h := hmantissa.mem hmem
      · simp [h] at hdigit
      · exact hdigit.2.1 h
    -- So the sign stands in the exponent, and there it is the second character.
    obtain ⟨mid, rfl, htail'⟩ : ∃ mid, a = mantissa ++ mid ∧ tail = mid ++ c :: b := by
      obtain h | ⟨mid, rfl, hmid⟩ := List.append_eq_append_iff.1 htext
      · exact h
      · cases mid with
        | nil => exact ⟨[], by simp, by simpa using hmid.symm⟩
        | cons d mid =>
          obtain ⟨rfl, -⟩ := List.cons.inj hmid
          exact absurd (by simp) hmem
    have not_digits : ∀ {digits front : List Char}, AllDigits digits →
        digits ≠ front ++ c :: b := by
      rintro digits front digit rfl
      simp [digit c (by simp)] at hdigit
    cases htail with
    | none => simp at htail'
    | unsigned isMark nonempty digit =>
      obtain ⟨rfl, hmid⟩ | ⟨mid, rfl, hmid⟩ := List.cons_eq_append_iff.1 htail'
      · exact absurd ((List.cons.inj hmid).1 ▸ isMark) hdigit.2.2
      · exact absurd hmid (not_digits digit)
    | @signed mark sign digits isMark isSign nonempty digit =>
      obtain ⟨rfl, hmid⟩ | ⟨mid, rfl, hmid⟩ := List.cons_eq_append_iff.1 htail'
      · exact absurd ((List.cons.inj hmid).1 ▸ isMark) hdigit.2.2
      · obtain ⟨rfl, -⟩ | ⟨mid', rfl, hdigits⟩ := List.cons_eq_append_iff.1 hmid
        · exact ⟨mantissa, mark, rfl, isMark⟩
        · exact absurd hdigits (not_digits digit)

theorem ne_nil_of_isSome {text : List Char} (h : (unsigned? text).isSome = true) : text ≠ [] := by
  obtain rfl | rfl | h := unsigned?_isSome_iff.1 h
  · decide
  · decide
  · obtain ⟨mantissa, tail, rfl, hmantissa, -⟩ := decimal?_isSome_iff.1 h
    simp [hmantissa.ne_nil]

/-- No literal begins with a sign. -/
theorem head_of_isSome {text : List Char} (h : (unsigned? text).isSome = true) :
    ∀ c ∈ text.head?, c ≠ '+' ∧ c ≠ '-' := by
  intro c hc
  obtain ⟨rest, htext⟩ := List.head?_eq_some_iff.1 hc
  have hfirst : ¬ (c = '+' ∨ c = '-') := by
    intro hsign
    obtain ⟨front, mark, hnil, -⟩ := mark_before_sign (a := []) h htext hsign
    simp at hnil
  exact ⟨fun heq => hfirst (.inl heq), fun heq => hfirst (.inr heq)⟩

theorem read?_of_head {text : List Char} (h : ∀ c ∈ text.head?, c ≠ '+' ∧ c ≠ '-') :
    read? text = unsigned? text := by
  unfold read?
  split
  · exact absurd rfl (h '-' rfl).2
  · exact absurd rfl (h '+' rfl).1
  · rfl

theorem parse_of_unsigned? {text : List Char} {v : Float} (h : unsigned? text = some v) :
    parse text = .ok v := by
  have isSome : (unsigned? text).isSome = true := by simp [h]
  rw [parse, read?_of_head (head_of_isSome isSome), h]

/-- No sign helps a text in which a group, a list of arguments or a factor begins or ends. -/
theorem parse_of_mem {text : List Char} {c : Char} (hc : c ∈ ['(', ')', ',', '*', '/'])
    (member : c ∈ text) : parse text = .error (.invalidNumber (String.ofList text)) := by
  have unread : ∀ {rest}, c ∈ rest → unsigned? rest = none := fun inRest =>
    Option.not_isSome_iff_eq_none.1 fun isSome => not_mem_of_isSome isSome inRest hc
  have behind : ∀ {sign rest}, c ∈ sign :: rest → sign ∉ ['(', ')', ',', '*', '/'] → c ∈ rest := by
    intro sign rest inText plain
    cases inText with
    | head => exact absurd hc plain
    | tail _ inRest => exact inRest
  have none : read? text = none := by
    unfold read?
    split
    · rw [unread (behind member (by decide)), Option.map_none]
    · exact unread (behind member (by decide))
    · exact unread member
  rw [parse, none]

theorem Exponent.last {tail : List Char} {c : Char} (h : Exponent tail)
    (hlast : tail.getLast? = some c) : c.isDigit = true := by
  have of_digits : ∀ {mark digits}, digits ≠ [] → AllDigits digits →
      (mark :: digits).getLast? = some c → c.isDigit = true := by
    intro mark digits nonempty digit hlast
    cases digits with
    | nil => exact absurd rfl nonempty
    | cons d digits =>
      rw [List.getLast?_cons_cons] at hlast
      exact digit c (List.mem_of_getLast? hlast)
  cases h with
  | none => simp at hlast
  | unsigned isMark nonempty digit => exact of_digits nonempty digit hlast
  | signed isMark isSign nonempty digit =>
    rw [List.getLast?_cons_cons] at hlast
    exact of_digits nonempty digit hlast

/-- A literal ends in a digit, a point or a letter that is no mark of an exponent. -/
theorem last_of_isSome {text : List Char} {c : Char} (h : (unsigned? text).isSome = true)
    (hlast : text.getLast? = some c) : ¬ IsMark c ∧ c ≠ '+' ∧ c ≠ '-' := by
  have of_mantissa : c.isDigit = true ∨ c = '.' → ¬ IsMark c ∧ c ≠ '+' ∧ c ≠ '-' := by
    rintro (hc | rfl)
    · refine ⟨fun hmark => by simp [hmark.not_isDigit] at hc, ?_, ?_⟩ <;>
        exact fun h => by simp [h] at hc
    · simp [IsMark]
  obtain rfl | rfl | h := unsigned?_isSome_iff.1 h
  · have word : infinityWord.getLast? = some 'y' := by decide
    rw [word, Option.some.injEq] at hlast
    subst hlast
    simp [IsMark]
  · have word : nanWord.getLast? = some 'N' := by decide
    rw [word, Option.some.injEq] at hlast
    subst hlast
    simp [IsMark]
  · obtain ⟨mantissa, tail, rfl, hmantissa, htail⟩ := decimal?_isSome_iff.1 h
    rw [List.getLast?_append, Option.or_eq_some_iff] at hlast
    obtain hlast | ⟨-, hlast⟩ := hlast
    · exact of_mantissa (.inl (htail.last hlast))
    · exact of_mantissa (hmantissa.mem (List.mem_of_getLast? hlast))

/-! ## A literal still being typed -/

theorem Mantissa.startsLiteral {text rest : List Char} (h : Mantissa text) :
    startsLiteral (text ++ rest) = true := by
  have first : ∀ c back, text ++ rest = c :: back → c.isDigit = true ∨ c = '.' := by
    intro c back hcons
    obtain ⟨d, mid, htext⟩ := List.exists_cons_of_ne_nil h.ne_nil
    obtain rfl : d = c := by
      rw [htext] at hcons
      exact (List.cons.inj hcons).1
    exact h.mem (htext ▸ List.mem_cons_self ..)
  match htext : text ++ rest with
  | [] => simp [h.ne_nil] at htext
  | c :: back =>
    have hc := first c back htext
    have hsign : (decide (c = '+') || decide (c = '-')) = false := by
      obtain hc | rfl := hc
      · have : c ≠ '+' ∧ c ≠ '-' := by
          constructor <;> rintro rfl <;> simp at hc
        simp [this]
      · decide
    rw [Fault.startsLiteral, List.dropWhile_cons_of_neg (by simpa using hsign)]
    simpa using hc

theorem isIncompleteText_of_awaitsMore {text : List Char} {c : Char}
    (hlast : text.getLast? = some c) (h : awaitsMore c = true) : isIncompleteText text = true := by
  simp [isIncompleteText, hlast, h]

/-- A mantissa with the beginning of an exponent is a literal or waits for the rest. -/
theorem exponent_typed {mantissa tail front : List Char} (hmantissa : Mantissa mantissa)
    (htail : Exponent tail) (hfront : front <+: tail) :
    (unsigned? (mantissa ++ front)).isSome = true ∨
      isIncompleteText (mantissa ++ front) = true := by
  have complete : ∀ {front}, Exponent front → (unsigned? (mantissa ++ front)).isSome = true :=
    fun hfront => unsigned?_isSome_iff.2 (.inr (.inr (decimal?_isSome_of hmantissa hfront)))
  have marked : ∀ {mark}, IsMark mark → isIncompleteText (mantissa ++ [mark]) = true := by
    intro mark isMark
    have hstarts : startsLiteral (mantissa ++ [mark]) = true := hmantissa.startsLiteral
    obtain rfl | rfl := isMark <;> simp [isIncompleteText, hstarts]
  cases htail with
  | none => exact .inl (complete (List.prefix_nil.1 hfront ▸ .none))
  | unsigned isMark nonempty digit =>
    obtain rfl | ⟨digits, rfl, hdigits⟩ := List.prefix_cons_iff.1 hfront
    · exact .inl (complete .none)
    · -- Behind the mark it is the digits that are still to come.
      by_cases hempty : digits = []
      · exact .inr (hempty ▸ marked isMark)
      · exact .inl (complete (.unsigned isMark hempty (digit.of_prefix hdigits)))
  | signed isMark isSign nonempty digit =>
    obtain rfl | ⟨rest, rfl, hrest⟩ := List.prefix_cons_iff.1 hfront
    · exact .inl (complete .none)
    · obtain rfl | ⟨digits, rfl, hdigits⟩ := List.prefix_cons_iff.1 hrest
      · exact .inr (marked isMark)
      · by_cases hempty : digits = []
        · subst hempty
          refine .inr (isIncompleteText_of_awaitsMore (by simp; rfl) ?_)
          obtain rfl | rfl := isSign <;> decide
        · exact .inl (complete (.signed isMark isSign hempty (digit.of_prefix hdigits)))

/-- What has been typed of a decimal is a decimal or waits for more. -/
theorem decimal_typed {text front : List Char} (h : (decimal? text).isSome = true)
    (hfront : front <+: text) :
    (unsigned? front).isSome = true ∨ isIncompleteText front = true := by
  obtain ⟨mantissa, tail, rfl, hmantissa, htail⟩ := decimal?_isSome_iff.1 h
  have complete : ∀ {front}, Mantissa front → (unsigned? front).isSome = true := by
    intro front hfront
    have := decimal?_isSome_of hfront .none
    exact unsigned?_isSome_iff.2 (.inr (.inr (by simpa using this)))
  have of_digits : ∀ {front digits}, AllDigits digits → front <+: digits →
      (unsigned? front).isSome = true ∨ isIncompleteText front = true := by
    intro front digits digit hfront
    by_cases hempty : front = []
    · exact .inr (by rw [hempty]; rfl)
    · exact .inl (complete (.whole hempty (digit.of_prefix hfront)))
  obtain hfront | ⟨rest, rfl, hrest⟩ := prefix_append_cases hfront
  · cases hmantissa with
    | whole nonempty digit => exact of_digits digit hfront
    | @point digits places nonempty digit place =>
      obtain hfront | ⟨rest, rfl, hrest⟩ := prefix_append_cases hfront
      · exact of_digits digit hfront
      · obtain rfl | ⟨places', rfl, hplaces⟩ := List.prefix_cons_iff.1 hrest
        · exact of_digits digit (by simp)
        · -- A point alone is no decimal yet.
          by_cases hempty : digits = [] ∧ places' = []
          · obtain ⟨rfl, rfl⟩ := hempty
            exact .inr rfl
          · refine .inl (complete (.point ?_ digit (place.of_prefix hplaces)))
            by_cases hdigits : digits = []
            · exact .inr fun hplaces => hempty ⟨hdigits, hplaces⟩
            · exact .inl hdigits
  · exact exponent_typed hmantissa htail hrest

end Reckoner.Literal
