import Reckoner.Library
import Reckoner.Proofs.Decimals
import Reckoner.Proofs.Excluding
import Reckoner.Proofs.Floats

/-! # Sums by name and by operator

A call of `sum` is divided at its commas from the left, and the values are folded from `-0` on.  A
chain of groups is divided at its last `+`, and what stands in front of it is divided again, so that
the tree leans to the left (`ofChars_additions`).  Both add the same values in the same order:
adding to `-0` leaves every float as it is (`negZero_add`), which no other start would do.
-/

namespace Reckoner

/-! ## Adding to negative zero -/

namespace Binary64

open Float.Model (Format UnpackedFloat)
open Float.Model.UnpackedFloat (pack pack_unpack_of_valid unpack)

theorem unpacked_negZero_add (u : UnpackedFloat) :
    UnpackedFloat.add Format.binary64 (.zero .negative) u = u := by
  cases u with
  | notANumber => rfl
  | infinity sign => rfl
  | zero sign => cases sign <;> rfl
  | finite sign mantissa exponent positive => rfl

theorem negZero_add (x : Float) : -0.0 + x = x := by
  have zero : unpack Format.binary64 (-0.0 : Float).toBits.toBitVec = .zero .negative := rfl
  -- Addition unpacks both operands and packs what comes out.
  have added : (-0.0 + x).toBits.toBitVec = pack Format.binary64
      (UnpackedFloat.add Format.binary64 (unpack Format.binary64 (-0.0 : Float).toBits.toBitVec)
        (unpack Format.binary64 x.toBits.toBitVec)) := rfl
  apply eq_of_toNat_toBits
  rw [added, zero, unpacked_negZero_add]
  exact congrArg BitVec.toNat (pack_unpack_of_valid x.toModel.valid)

theorem foldl_add_negZero {xs : List Float} (zeros : ∀ x ∈ xs, x = -0.0) :
    xs.foldl (· + ·) (-0.0) = -0.0 := by
  induction xs with
  | nil => rfl
  | cons x xs ih =>
    rw [List.foldl_cons, negZero_add, zeros x (List.mem_cons_self ..)]
    exact ih fun y member => zeros y (List.mem_cons_of_mem _ member)

end Binary64

/-! ## Chains of groups -/

namespace Expression

open Text (Balanced balanced_group)

variable {functions : Repertoire} {text left : List Char} {texts : List (List Char)}

/-- A text in parentheses. -/
def grouped (text : List Char) : List Char :=
  '(' :: (text ++ [')'])

/-- A chain of groups behind its first part. -/
def additions (texts : List (List Char)) : List Char :=
  texts.flatMap fun text => '+' :: grouped text

/-- The tree of a chain of groups on top of that of its first part. -/
def leaning (first : Expression) (texts : List (List Char)) : Expression :=
  texts.foldl (fun sum text => binary .add sum (group (ofChars text))) first

theorem getLast?_grouped (text : List Char) : (grouped text).getLast? = some ')' := by
  rw [grouped, ← List.cons_append, List.getLast?_concat]

theorem ofProduct_grouped (balanced : Balanced text) :
    ofProduct (grouped text) = group (ofChars text) := by
  have undivided : splitProduct? (grouped text) = none :=
    splitLast?_eq_none_iff.2 (hidden_group rfl rfl balanced [])
  have inside : call? (grouped text) = some ([], text) := call?_append List.not_mem_nil text
  rw [ofProduct_of_none undivided, ofSigned_of_head (by simp [grouped]), ofOperand_of_group inside]

theorem ofChars_grouped (balanced : Balanced text) :
    ofChars (grouped text) = group (ofChars text) := by
  have undivided : splitSum? (grouped text) = none :=
    splitLast?_eq_none_iff.2 (hidden_group rfl rfl balanced [])
  rw [ofChars_of_none undivided, ofProduct_grouped balanced]

theorem ofChars_append_grouped (closed : left.getLast? = some ')') (balanced : Balanced text) :
    ofChars (left ++ '+' :: grouped text) = binary .add (ofChars left) (group (ofChars text)) := by
  have divided : splitSum? (left ++ '+' :: grouped text) = some (left, .add, grouped text) :=
    splitLast?_append rfl ⟨')', closed, rfl⟩ (balanced_group balanced).level
      (hidden_group rfl rfl balanced)
  rw [ofChars_of_some divided, ofProduct_grouped balanced]

/-- Chains of groups are read from the left. -/
theorem ofChars_additions (closed : left.getLast? = some ')')
    (balanced : ∀ text ∈ texts, Balanced text) :
    ofChars (left ++ additions texts) = leaning (ofChars left) texts := by
  induction texts generalizing left with
  | nil => exact congrArg ofChars (List.append_nil left)
  | cons text rest ih =>
    have longer : left ++ additions (text :: rest) =
        (left ++ '+' :: grouped text) ++ additions rest := by
      simp [additions]
    have ends : (left ++ '+' :: grouped text).getLast? = some ')' := by
      rw [List.append_cons, List.getLast?_append, getLast?_grouped]
      rfl
    rw [longer, ih ends fun other member => balanced other (List.mem_cons_of_mem _ member),
      ofChars_append_grouped closed (balanced text (List.mem_cons_self ..))]
    rfl

theorem eval_leaning {values : List Float}
    (evaluated : List.Forall₂ (fun text v => (ofChars text).eval functions = .ok v) texts values)
    {sum : Expression} {x : Float} (first : sum.eval functions = .ok x) :
    (leaning sum texts).eval functions = .ok (values.foldl (· + ·) x) := by
  induction evaluated generalizing sum x with
  | nil => exact first
  | @cons text v rest values value _ ih =>
    have group : (group (ofChars text)).eval functions = .ok v := by rw [eval, value]
    refine ih ?_
    rw [Grammar.eval_binary, first, group]
    rfl

end Expression

open Expression (additions grouped lengthLimit ofChars)
open Text (strip strip_append)

/-- Texts in parentheses with a `+` between each two. -/
def additionText (texts : List String) : String :=
  "+".intercalate (texts.map fun text => "(" ++ text ++ ")")

theorem toList_additionText (first : String) (rest : List String) :
    (additionText (first :: rest)).toList =
      grouped first.toList ++ additions (rest.map String.toList) := by
  induction rest generalizing first with
  | nil => simp [additionText, grouped, additions]
  | cons second others ih =>
    have joined : (additionText (first :: second :: others)).toList =
        grouped first.toList ++ '+' :: (additionText (second :: others)).toList := by
      simp [additionText, grouped]
    rw [joined, ih]
    rfl

theorem strip_grouped (text : List Char) : strip (grouped text) = grouped (strip text) := by
  have opening : strip (grouped text) = '(' :: strip (text ++ [')']) := rfl
  rw [opening, strip_append]
  rfl

theorem strip_additions (texts : List (List Char)) :
    strip (additions texts) = additions (texts.map strip) := by
  induction texts with
  | nil => rfl
  | cons text rest ih =>
    have sign : strip (additions (text :: rest)) = '+' :: strip (grouped text ++ additions rest) :=
      rfl
    rw [sign, strip_append, strip_grouped, ih]
    rfl

namespace Repertoire

variable {functions : Repertoire}

theorem eval_strip_of_evaluate {texts : List String} {values : List Float}
    (evaluated : List.Forall₂ (fun text v => functions.evaluate text = .ok v) texts values) :
    List.Forall₂ (fun text v => (ofChars text).eval functions = .ok v)
      (texts.map fun text => strip text.toList) values := by
  rw [List.forall₂_map_left_iff]
  exact evaluated.imp fun text v value => (evaluate_eq_ok_iff.1 value).2

/-- Groups joined by `+` are added from the left. -/
theorem evaluate_additionText (built : functions.Built) {first : String} {rest : List String}
    {x : Float} {xs : List Float}
    (evaluated : List.Forall₂ (fun text v => functions.evaluate text = .ok v) (first :: rest)
      (x :: xs))
    (fits : (strip (additionText (first :: rest)).toList).length ≤ lengthLimit) :
    functions.evaluate (additionText (first :: rest)) = .ok (xs.foldl (· + ·) x) := by
  obtain ⟨contained, others⟩ := List.forall_mem_cons.1 (contained_of_evaluate built evaluated)
  have stripped : strip (additionText (first :: rest)).toList =
      grouped (strip first.toList) ++ additions (rest.map fun text => strip text.toList) := by
    rw [toList_additionText, strip_append, strip_grouped, strip_additions, List.map_map]
    rfl
  obtain ⟨value, values⟩ := List.forall₂_cons.1 (eval_strip_of_evaluate evaluated)
  rw [evaluate_of_fits functions fits, stripped,
    Expression.ofChars_additions (Expression.getLast?_grouped _)
      fun text member => (others text member).balanced,
    Expression.ofChars_grouped contained.balanced]
  exact Expression.eval_leaning values (by rwa [Expression.eval])

theorem evaluate_negative_zero {text : String} {digits : List Char} {e : Int}
    (written : strip text.toList = '-' :: digits) (zero : Literal.decimal? digits = some ⟨0, e⟩)
    (fits : digits.length < lengthLimit) : functions.evaluate text = .ok (-0.0) := by
  have reads : Literal.unsigned? digits = some 0.0 := by
    rw [Literal.unsigned?_of_decimal? zero, Decimal.toFloat, Decimal.toBits_of_coefficient_zero]
    rfl
  let tree : Grammar.Sum :=
    .term (some true) (.factor (.numeral (Grammar.Numeral.ofUnsigned digits 0.0 reads)))
  have short : (strip text.toList).length ≤ lengthLimit := by rwa [written]
  rw [functions.evaluate_of_fits short, written]
  exact tree.eval_chars functions

end Repertoire

/-! ## The function of the standard library -/

namespace Library

theorem total_cons (x : Float) (xs : List Float) : total (x :: xs) = xs.foldl (· + ·) x := by
  rw [total, List.foldl_cons, Binary64.negZero_add]

theorem invoke_sum (x : Float) (xs : List Float) :
    sum.invoke (x :: xs) = .ok (xs.foldl (· + ·) x) := by
  have accepted : sum.arity.accepts (x :: xs).length = true := by
    simp [sum, Arity.accepts]
  rw [Function.invoke, if_pos accepted, ← total_cons]
  rfl

theorem registry_built (exclusions : Exclusions) : (registry exclusions).functions.Built :=
  Discovery.scan_built exclusions .empty candidates

theorem functions_registry (exclusions : Exclusions) :
    (registry exclusions).functions = (registry {}).functions.without exclusions :=
  Discovery.scan_without exclusions .empty candidates

theorem sum_mem_registry {exclusions : Exclusions} (enabled : exclusions.excludes "sum" = false) :
    sum.guard ∈ (registry exclusions).functions.functions := by
  have offered : (registry {}).functions.get? sum.name = some sum.guard := rfl
  have kept : (!exclusions.excludes sum.guard.name) = true := by simp [sum, enabled]
  rw [functions_registry]
  exact List.mem_filter.2 ⟨(Repertoire.mem_of_get? offered).1, kept⟩

/-- Whatever the arguments are, calling the sum of their texts by name and writing it with `+` give
the float that adds their values from the left.  Negative zeros have a negative zero as their
sum. -/
theorem evaluate_sum_eq_addition {exclusions : Exclusions}
    (enabled : exclusions.excludes "sum" = false) {texts : List String} {values : List Float}
    (nonempty : texts ≠ [])
    (evaluated : List.Forall₂
      (fun text v => (registry exclusions).functions.evaluate text = .ok v) texts values)
    (callFits : (strip (callText "sum" texts).toList).length ≤ lengthLimit)
    (additionFits : (strip (additionText texts).toList).length ≤ lengthLimit) :
    ∃ x xs, values = x :: xs ∧
      (registry exclusions).functions.evaluate (callText "sum" texts) =
        .ok (xs.foldl (· + ·) x) ∧
      (registry exclusions).functions.evaluate (additionText texts) =
        .ok (xs.foldl (· + ·) x) ∧
      ((∀ y ∈ values, y = -0.0) → xs.foldl (· + ·) x = -0.0) := by
  obtain ⟨first, rest, rfl⟩ := List.exists_cons_of_ne_nil nonempty
  obtain ⟨x, xs, -, -, rfl⟩ := List.forall₂_cons_left_iff.1 evaluated
  have built := registry_built exclusions
  have called := Repertoire.evaluate_callText_of_callable built (sum_mem_registry enabled)
    (by decide) evaluated callFits
  refine ⟨x, xs, rfl, ?_, Repertoire.evaluate_additionText built evaluated additionFits, ?_⟩
  · rw [← invoke_sum, ← Function.invoke_guard]
    exact called
  · intro zeros
    obtain ⟨rfl, others⟩ := List.forall_mem_cons.1 zeros
    exact Binary64.foldl_add_negZero others

theorem evaluate_sum_eq_addition_negative_zeros :
    let exclusions : Exclusions := ⟨["max"]⟩
    let known := (registry exclusions).functions
    let texts := ["-0", " - .0e-9 "]
    exclusions.excludes "sum" = false ∧
      List.Forall₂ (fun text v => known.evaluate text = .ok v) texts [-0.0, -0.0] ∧
      (strip (callText "sum" texts).toList).length ≤ lengthLimit ∧
      (strip (additionText texts).toList).length ≤ lengthLimit ∧
      known.evaluate (callText "sum" texts) = .ok (-0.0) ∧
      known.evaluate (additionText texts) = .ok (-0.0) := by
  intro exclusions known texts
  have enabled : exclusions.excludes "sum" = false := rfl
  have first : known.evaluate "-0" = .ok (-0.0) :=
    @Repertoire.evaluate_negative_zero known _ ['0'] 0 (by decide) (by decide) (by decide)
  have second : known.evaluate " - .0e-9 " = .ok (-0.0) :=
    @Repertoire.evaluate_negative_zero known _ ".0e-9".toList (-10) (by decide) (by decide)
      (by decide)
  have evaluated : List.Forall₂ (fun text v => known.evaluate text = .ok v) texts [-0.0, -0.0] :=
    .cons first (.cons second .nil)
  have callFits : (strip (callText "sum" texts).toList).length ≤ lengthLimit := by decide
  have additionFits : (strip (additionText texts).toList).length ≤ lengthLimit := by decide
  obtain ⟨x, xs, values, called, added, negative⟩ :=
    evaluate_sum_eq_addition enabled (List.cons_ne_nil _ _) evaluated callFits additionFits
  rw [negative (by simp)] at called added
  exact ⟨enabled, evaluated, callFits, additionFits, called, added⟩

end Library
end Reckoner
