import Reckoner.Text.Fields

/-! # Expressions

The shape of an arithmetic text. A reading is lossless: every character of the text is in the tree,
and `Expression.chars` writes it back. What is neither operation, sign, group nor call is kept as a
literal, whether or not it is a number, so that every text has a reading.
-/

namespace Reckoner

/-- The four operations. -/
inductive Operator where
  | add
  | subtract
  | multiply
  | divide
  deriving DecidableEq, Repr

namespace Operator

/-- The character of an operation. -/
def char : Operator → Char
  | add => '+'
  | subtract => '-'
  | multiply => '*'
  | divide => '/'

/-- The operation on floats; a division by zero gives an infinity or no number. -/
def apply : Operator → Float → Float → Float
  | add, x, y => x + y
  | subtract, x, y => x - y
  | multiply, x, y => x * y
  | divide, x, y => x / y

/-- The operations that bind weakly. -/
def additive? : Char → Option Operator
  | '+' => some add
  | '-' => some subtract
  | _ => none

/-- The operations that bind strongly. -/
def multiplicative? : Char → Option Operator
  | '*' => some multiply
  | '/' => some divide
  | _ => none

theorem char_of_additive? {c : Char} {o : Operator} (h : additive? c = some o) : o.char = c := by
  unfold additive? at h
  split at h <;> simp_all [char] <;> subst h <;> rfl

theorem char_of_multiplicative? {c : Char} {o : Operator} (h : multiplicative? c = some o) :
    o.char = c := by
  unfold multiplicative? at h
  split at h <;> simp_all [char] <;> subst h <;> rfl

end Operator

/-- The shape of an arithmetic text. -/
inductive Expression where
  | literal (text : List Char)
  | binary (operator : Operator) (left right : Expression)
  | signed (negative : Bool) (operand : Expression)
  | group (inner : Expression)
  | call (name : List Char) (args : List Expression)

namespace Expression

/-- The character of a sign. -/
def signChar (negative : Bool) : Char :=
  if negative then '-' else '+'

mutual

/-- The text of an expression. -/
def chars : Expression → List Char
  | literal text => text
  | binary operator left right => chars left ++ operator.char :: chars right
  | signed negative operand => signChar negative :: chars operand
  | group inner => '(' :: (chars inner ++ [')'])
  | call name args => name ++ '(' :: (Text.joinCommas (charsOfAll args) ++ [')'])

/-- The texts of the arguments of a call. -/
def charsOfAll : List Expression → List (List Char)
  | [] => []
  | arg :: args => chars arg :: charsOfAll args

end

theorem charsOfAll_eq_map (args : List Expression) : charsOfAll args = args.map chars := by
  induction args with
  | nil => rfl
  | cons arg args ih => simp [charsOfAll, ih]

end Expression
end Reckoner
