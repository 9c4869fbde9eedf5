/-! # Argument counts

How many arguments a function takes: exactly so many, or at least so many.
-/

namespace Reckoner

/-- The argument counts that a function accepts. -/
inductive Arity where
  | exactly (count : Nat)
  | atLeast (least : Nat)
  deriving DecidableEq, Repr

namespace Arity

/-- Whether a call with `count` arguments is accepted. -/
def accepts : Arity → Nat → Bool
  | exactly wanted, count => count == wanted
  | atLeast least, count => least ≤ count

/-- The words for an arity in a message. -/
def display : Arity → String
  | exactly wanted => toString wanted
  | atLeast least => "at least " ++ toString least

@[simp] theorem accepts_exactly {wanted count : Nat} :
    (exactly wanted).accepts count = true ↔ count = wanted := by
  simp [accepts]

@[simp] theorem accepts_atLeast {least count : Nat} :
    (atLeast least).accepts count = true ↔ least ≤ count := by
  simp [accepts]

end Arity
end Reckoner
