import Reckoner.Arity

/-! # Faults

A fault says why an expression has no value or why a function could not be registered. Its `kind`
names the cause without the details, its `message` is the sentence shown to people, and
`isIncomplete` tells text that is still being typed from text that is wrong.
-/

namespace Reckoner

/-! ## Kinds -/

/-- The cause of a fault without its details. -/
inductive Fault.Kind where
  | invalidNumber
  | arityMismatch
  | invocationFailure
  | configurationError
  | duplicateName
  | expressionTooLong
  deriving DecidableEq, Repr

/-- Every kind, each once. -/
def Fault.Kind.all : List Fault.Kind :=
  [.invalidNumber, .arityMismatch, .invocationFailure, .configurationError, .duplicateName,
   .expressionTooLong]

/-- The code of a kind for programs to branch on. -/
def Fault.Kind.code : Fault.Kind → String
  | invalidNumber => "INVALID_NUMBER"
  | arityMismatch => "ARITY_MISMATCH"
  | invocationFailure => "INVOCATION_FAILURE"
  | configurationError => "CONFIGURATION_ERROR"
  | duplicateName => "DUPLICATE_NAME"
  | expressionTooLong => "EXPRESSION_TOO_LONG"

/-- Whether something was only skipped, or failed. -/
inductive Severity where
  | warning
  | error
  deriving DecidableEq, Repr

/-- Every severity, each once. -/
def Severity.all : List Severity :=
  [.warning, .error]

/-- The word for a severity. -/
def Severity.word : Severity → String
  | warning => "warning"
  | error => "error"

/-! ## Faults -/

/-- Why an evaluation, a registration or a discovery failed. -/
inductive Fault where
  /-- A piece of an expression is neither a literal nor anything else. -/
  | invalidNumber (text : String)
  /-- A call has an argument count that the function does not take. -/
  | arityMismatch (function : String) (expected : Arity) (got : Nat)
  /-- A function gave up, crashed, or answered with no number. -/
  | invocationFailure (function : String) (reason : String)
  /-- A candidate or a name cannot be used. -/
  | configuration (candidate : String) (reason : String)
  /-- An earlier function holds the name. -/
  | duplicateName (name : String)
  /-- An expression exceeds the length limit. -/
  | expressionTooLong (length : Nat) (limit : Nat)
  deriving DecidableEq, Repr

namespace Fault

/-- The kind of a fault. -/
def kind : Fault → Kind
  | invalidNumber _ => .invalidNumber
  | arityMismatch _ _ _ => .arityMismatch
  | invocationFailure _ _ => .invocationFailure
  | configuration _ _ => .configurationError
  | duplicateName _ => .duplicateName
  | expressionTooLong _ _ => .expressionTooLong

/-- A name that is taken is skipped with a warning; all else is an error. -/
def severity : Fault → Severity
  | duplicateName _ => .warning
  | _ => .error

/-- The sentence for a fault. -/
def message : Fault → String
  | invalidNumber text => "Invalid number: '" ++ text ++ "'"
  | arityMismatch function expected got =>
    function ++ "() expects " ++ expected.display ++ " arguments, got " ++ toString got
  | invocationFailure function reason => "Error running function " ++ function ++ ": " ++ reason
  | configuration candidate reason =>
    "Plugin '" ++ candidate ++ "' is misconfigured: " ++ reason
  | duplicateName name => "Function '" ++ name ++ "' is already registered"
  | expressionTooLong length limit =>
    "Expression is " ++ toString length ++ " characters long, the limit is " ++ toString limit

/-! ## Text still being typed -/

/-- Characters after which an operand, an argument or a digit has yet to come. -/
def awaitsMore (c : Char) : Bool :=
  c ∈ ['(', ',', '+', '-', '*', '/', '.']

/-- Whether text starts as a literal does, whatever signs stand before it. -/
def startsLiteral (text : List Char) : Bool :=
  match text.dropWhile fun c => c = '+' || c = '-' with
  | [] => false
  | c :: _ => c.isDigit || c = '.'

/-- Text that failed as a number but that more characters may complete: it is empty, ends where
something must follow, is a literal waiting for its exponent, or opens more groups than it
closes. -/
def isIncompleteText (text : List Char) : Bool :=
  match text.getLast? with
  | none => true
  | some last =>
    awaitsMore last || (startsLiteral text && (last = 'e' || last = 'E'))
      || decide (text.count ')' < text.count '(')

/-- Whether the failing text looks like an expression still being typed. -/
def isIncomplete : Fault → Bool
  | invalidNumber text => isIncompleteText text.toList
  | _ => false

end Fault
end Reckoner
