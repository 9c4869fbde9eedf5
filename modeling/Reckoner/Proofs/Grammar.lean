import Reckoner.Expression.Value
import Reckoner.Proofs.Operands

/-! # The grammar of expressions

The expressions people write, as trees: sums of products of factors, a sign only in front of a sum.
Both chains grow to the left, so that their last operation is on top.  A tree has a text (`chars`)
and a value under a set of functions (`value`), and neither knows how a text is read: the operations
have characters and meanings of their own, and `recognised` and `apply_operator` say that the
reader and the evaluator take them for the same.

Nothing ill-formed can be built: a literal carries what it reads as, and the name of a call is known
to hold no character that the grammar uses.
-/

namespace Reckoner.Grammar

open Expression (Operand Hidden operatorChars signChar)
open Text (joinCommas)

/-- The operations that join the terms of a sum. -/
inductive Additive where
  | plus
  | minus
  deriving DecidableEq, Repr

/-- The operations that join the factors of a product. -/
inductive Multiplicative where
  | times
  | divide
  deriving DecidableEq, Repr

/-- A literal without a sign, with its value. -/
structure Numeral where
  text : List Char
  value : Float
  reads : Literal.parse text = .ok value
  unsigned : ∀ c ∈ text.head?, c ≠ '+' ∧ c ≠ '-'

/-- A name as it may stand in front of a parenthesis. -/
structure Name where
  chars : List Char
  nonempty : chars ≠ []
  blanks : ∀ c ∈ chars, Text.isBlank c = false
  plain : ∀ c ∈ chars, c ≠ '(' ∧ c ≠ ')' ∧ c ≠ ','
  operators : ∀ c ∈ chars, c ∉ ['+', '-', '*', '/']

mutual
/-- Terms joined by `+` and `-`, with or without a sign in front. -/
inductive Sum where
  | term (sign : Option Bool) (first : Product)
  | more (left : Sum) (operation : Additive) (right : Product)

/-- Factors joined by `*` and `/`. -/
inductive Product where
  | factor (first : Factor)
  | more (left : Product) (operation : Multiplicative) (right : Factor)

inductive Factor where
  | numeral (literal : Numeral)
  | group (inner : Sum)
  | call (name : Name) (args : Arguments)

inductive Arguments where
  | nil
  | cons (first : Sum) (rest : Arguments)
end

/-! ## The text of a tree -/

def Additive.char : Additive → Char
  | plus => '+'
  | minus => '-'

def Multiplicative.char : Multiplicative → Char
  | times => '*'
  | divide => '/'

def signText : Option Bool → List Char
  | none => []
  | some false => ['+']
  | some true => ['-']

mutual
def Sum.chars : Sum → List Char
  | .term sign first => signText sign ++ first.chars
  | .more left operation right => left.chars ++ operation.char :: right.chars

def Product.chars : Product → List Char
  | .factor first => first.chars
  | .more left operation right => left.chars ++ operation.char :: right.chars

def Factor.chars : Factor → List Char
  | .numeral literal => literal.text
  | .group inner => '(' :: (inner.chars ++ [')'])
  | .call name args => name.chars ++ '(' :: (joinCommas args.texts ++ [')'])

def Arguments.texts : Arguments → List (List Char)
  | .nil => []
  | .cons first rest => first.chars :: rest.texts
end

/-! ## The value of a tree

Operands and arguments are evaluated from left to right, and the first fault is the answer.  A sign
belongs to the first factor of its sum.  The arguments of an unknown function are not looked at:
the call as a whole is the fault. -/

def Additive.apply : Additive → Float → Float → Float
  | plus, x, y => x + y
  | minus, x, y => x - y

def Multiplicative.apply : Multiplicative → Float → Float → Float
  | times, x, y => x * y
  | divide, x, y => x / y

def applySign : Option Bool → Float → Float
  | some true, x => -x
  | _, x => x

mutual
def Sum.value (functions : Repertoire) : Sum → Except Fault Float
  | .term sign first => first.value functions sign
  | .more left operation right => do
    let x ← left.value functions
    let y ← right.value functions none
    return operation.apply x y

def Product.value (functions : Repertoire) (sign : Option Bool) : Product → Except Fault Float
  | .factor first => do
    let x ← first.value functions
    return applySign sign x
  | .more left operation right => do
    let x ← left.value functions sign
    let y ← right.value functions
    return operation.apply x y

def Factor.value (functions : Repertoire) : Factor → Except Fault Float
  | .numeral literal => .ok literal.value
  | .group inner => inner.value functions
  | .call name args =>
    match functions.get? (String.ofList name.chars) with
    | none => .error (.invalidNumber (String.ofList (Factor.call name args).chars))
    | some f => do
      let xs ← args.values functions
      f.invoke xs

def Arguments.values (functions : Repertoire) : Arguments → Except Fault (List Float)
  | .nil => .ok []
  | .cons first rest => do
    let x ← first.value functions
    let xs ← rest.values functions
    return x :: xs
end

/-! ## The operations as they are read -/

def Additive.operator : Additive → Operator
  | plus => .add
  | minus => .subtract

def Multiplicative.operator : Multiplicative → Operator
  | times => .multiply
  | divide => .divide

/-- The reader takes the character of an operation for that operation. -/
theorem Additive.recognised (o : Additive) : Operator.additive? o.char = some o.operator := by
  cases o <;> rfl

theorem Multiplicative.recognised (o : Multiplicative) :
    Operator.multiplicative? o.char = some o.operator := by
  cases o <;> rfl

/-- The reader takes no other character for an operation. -/
theorem Additive.exists_of_recognised {c : Char} {operator : Operator}
    (h : Operator.additive? c = some operator) :
    ∃ o : Additive, o.char = c ∧ o.operator = operator := by
  unfold Operator.additive? at h
  split at h
  · exact ⟨.plus, rfl, Option.some.inj h⟩
  · exact ⟨.minus, rfl, Option.some.inj h⟩
  · cases h

theorem Multiplicative.exists_of_recognised {c : Char} {operator : Operator}
    (h : Operator.multiplicative? c = some operator) :
    ∃ o : Multiplicative, o.char = c ∧ o.operator = operator := by
  unfold Operator.multiplicative? at h
  split at h
  · exact ⟨.times, rfl, Option.some.inj h⟩
  · exact ⟨.divide, rfl, Option.some.inj h⟩
  · cases h

theorem Additive.apply_operator (o : Additive) : o.operator.apply = o.apply := by
  cases o <;> rfl

theorem Multiplicative.apply_operator (o : Multiplicative) : o.operator.apply = o.apply := by
  cases o <;> rfl

theorem signText_some (negative : Bool) : signText (some negative) = [signChar negative] := by
  cases negative <;> rfl

/-! ## The text of a tree from outside -/

theorem Numeral.unsigned?_eq (literal : Numeral) :
    Literal.unsigned? literal.text = some literal.value := by
  obtain ⟨text, value, reads, unsigned⟩ := literal
  rw [Literal.parse, Literal.read?_of_head unsigned] at reads
  split at reads
  · next x hx =>
    rw [Except.ok.inj reads] at hx
    exact hx
  · simp at reads

/-- The literal that a text without a sign is read as. -/
def Numeral.ofUnsigned (text : List Char) (value : Float)
    (h : Literal.unsigned? text = some value) : Numeral where
  text := text
  value := value
  reads := Literal.parse_of_unsigned? h
  unsigned := Literal.head_of_isSome (by simp [h])

/-- The literal that a decimal is read from. -/
def Numeral.ofDecimal (text : List Char) (d : Decimal) (h : Literal.decimal? text = some d) :
    Numeral :=
  .ofUnsigned text d.toFloat (Literal.unsigned?_of_decimal? h)

theorem Numeral.isSome (literal : Numeral) : (Literal.unsigned? literal.text).isSome = true := by
  simp [literal.unsigned?_eq]

theorem Additive.char_mem (o : Additive) : o.char ∈ operatorChars := by
  cases o <;> decide

theorem Multiplicative.char_mem (o : Multiplicative) : o.char ∈ operatorChars := by
  cases o <;> decide

theorem Multiplicative.additive?_eq_none (o : Multiplicative) :
    Operator.additive? o.char = none := by
  cases o <;> rfl

/-- No product begins with an operator. -/
theorem Factor.head (f : Factor) : ∀ d ∈ f.chars.head?, d ∉ operatorChars := by
  cases f with
  | numeral literal =>
    intro d hd operator
    have hmem := List.mem_of_mem_head? hd
    obtain hsign | hsign := Expression.sign_of_operator literal.isSome hmem operator
    · exact (literal.unsigned d hd).1 hsign
    · exact (literal.unsigned d hd).2 hsign
  | group inner =>
    intro d hd
    obtain rfl : '(' = d := by simpa [Factor.chars] using hd
    decide
  | call name args =>
    intro d hd
    obtain ⟨c, rest, hname⟩ := List.exists_cons_of_ne_nil name.nonempty
    obtain rfl : c = d := by simpa [Factor.chars, hname] using hd
    exact name.operators c (hname ▸ List.mem_cons_self ..)

theorem Factor.unsigned (f : Factor) : ∀ d ∈ f.chars.head?, d ≠ '+' ∧ d ≠ '-' := by
  intro d hd
  have operator := f.head d hd
  refine ⟨?_, ?_⟩ <;> intro same <;> exact operator (same ▸ by decide)

mutual
theorem Sum.operand : (s : Sum) → Operand s.chars
  | .term none first => first.operand.1
  | .term (some negative) first => by
    rw [Sum.chars, signText_some]
    exact Expression.operand_signed (Expression.signChar_mem_operatorChars negative)
      first.operand.1 first.operand.2
  | .more left operation right =>
    Expression.operand_binary operation.char_mem left.operand right.operand.1 right.operand.2

theorem Product.operand : (p : Product) →
    Operand p.chars ∧ ∀ d ∈ p.chars.head?, d ∉ operatorChars
  | .factor first => ⟨first.operand, first.head⟩
  | .more left operation right => by
    refine ⟨Expression.operand_binary operation.char_mem left.operand.1 right.operand right.head,
      ?_⟩
    intro d hd
    obtain ⟨c, rest, hleft⟩ := List.exists_cons_of_ne_nil left.operand.1.nonempty
    rw [Product.chars, hleft] at hd
    exact left.operand.2 d (by rw [hleft]; simpa using hd)

theorem Factor.operand : (f : Factor) → Operand f.chars
  | .numeral literal => Expression.operand_literal literal.isSome
  | .group inner => Expression.operand_group inner.operand
  | .call name args => Expression.operand_call name.plain name.operators args.operand

theorem Arguments.operand : (args : Arguments) → ∀ text ∈ args.texts, Operand text
  | .nil => by
    intro text member
    cases member
  | .cons first rest => by
    intro text member
    cases member with
    | head => exact first.operand
    | tail _ member => exact rest.operand text member
end

/-- The operators in a factor stay inside it. -/
theorem Factor.hidden (f : Factor) :
    Hidden Operator.additive? Expression.notExponentMark f.chars ∧
      Hidden Operator.multiplicative? (fun _ => true) f.chars := by
  cases f with
  | numeral literal =>
    refine ⟨Expression.hidden_literal literal.isSome, Expression.hidden_of_no_operator ?_⟩
    intro c hc
    have := Literal.not_mem_of_isSome literal.isSome hc
    unfold Operator.multiplicative?
    split <;> simp_all
  | group inner =>
    exact ⟨Expression.hidden_group rfl rfl inner.operand.balanced,
      Expression.hidden_group rfl rfl inner.operand.balanced⟩
  | call name args =>
    -- The name holds no operator and the parentheses hide those of the arguments.
    have balanced := Text.balanced_joinCommas fun text member => (args.operand text member).balanced
    have level := (Text.balanced_group balanced).level
    refine ⟨Expression.hidden_append level (Expression.hidden_of_no_operator ?_)
      (Expression.hidden_group rfl rfl balanced), Expression.hidden_append level
      (Expression.hidden_of_no_operator ?_) (Expression.hidden_group rfl rfl balanced)⟩
    · intro c hc
      have := name.operators c hc
      unfold Operator.additive?
      split <;> simp_all
    · intro c hc
      have := name.operators c hc
      unfold Operator.multiplicative?
      split <;> simp_all

theorem Product.hidden : (p : Product) →
    Hidden Operator.additive? Expression.notExponentMark p.chars
  | .factor first => first.hidden.1
  | .more left operation right => by
    have plain := Expression.operatorChars_plain operation.char_mem
    have level := (Text.level_cons_iff plain.1 plain.2.1).2 right.operand.balanced.level
    exact Expression.hidden_append level left.hidden
      (Expression.hidden_cons operation.additive?_eq_none right.hidden.1)

end Reckoner.Grammar
