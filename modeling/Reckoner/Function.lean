import Reckoner.Fault
import Reckoner.Text.Blank

/-! # Functions

A function has a name, the texts shown for it, an arity and a body. A body is foreign code: it may
return, fail with a cause, or crash. `invoke` is the only way to call one. It counts the arguments
first and turns a crash into a fault, so a call always ends in a number or a fault.

* `guard` — the function with that protection built into its body; `invoke_guard` says that
  guarding again changes nothing.
-/

namespace Reckoner

/-- How a run of foreign code ends. -/
inductive Outcome (cause : Type) (result : Type) where
  | returned (value : result)
  | failed (reason : cause)
  /-- The code broke down, leaving a text if it could. -/
  | crashed (note : Option String)
  deriving DecidableEq

namespace Outcome

/-- The text of a crash. -/
def noteText (note : Option String) : String :=
  note.getD "unknown panic"

/-- A result or a fault as an outcome. -/
def ofExcept {cause result : Type} : Except cause result → Outcome cause result
  | .ok value => .returned value
  | .error reason => .failed reason

end Outcome

/-- A named function on floats. -/
structure Function where
  name : String
  /-- What a front end inserts to begin a call. -/
  insertText : String := name ++ "("
  description : String := ""
  arity : Arity := .exactly 1
  body : List Float → Outcome Fault Float

namespace Function

/-- The fault of a body that crashed. -/
def crashFault (name : String) (note : Option String) : Fault :=
  .invocationFailure name ("panicked: " ++ Outcome.noteText note)

/-- Calls the function: the body runs only on an argument count that the arity accepts, and a crash
becomes a fault that names the function. -/
def invoke (f : Function) (args : List Float) : Except Fault Float :=
  if f.arity.accepts args.length then
    match f.body args with
    | .returned value => .ok value
    | .failed fault => .error fault
    | .crashed note => .error (crashFault f.name note)
  else .error (.arityMismatch f.name f.arity args.length)

/-- The same function with a body that never crashes and checks its argument count. -/
def guard (f : Function) : Function :=
  { f with body := fun args => Outcome.ofExcept (f.invoke args) }

@[simp] theorem name_guard (f : Function) : f.guard.name = f.name := rfl
@[simp] theorem insertText_guard (f : Function) : f.guard.insertText = f.insertText := rfl
@[simp] theorem description_guard (f : Function) : f.guard.description = f.description := rfl
@[simp] theorem arity_guard (f : Function) : f.guard.arity = f.arity := rfl

@[simp] theorem invoke_guard (f : Function) (args : List Float) :
    f.guard.invoke args = f.invoke args := by
  by_cases h : f.arity.accepts args.length = true
  · cases hb : f.body args <;> simp [invoke, guard, h, hb, Outcome.ofExcept]
  · simp [invoke, guard, h]

/-! ## Names

A name has to work in front of a parenthesis: blanks are dropped before a text is read, and
parentheses and commas divide it. -/

def isNameChar (c : Char) : Bool :=
  !(Text.isBlank c || c ∈ ['(', ')', ','])

/-- Accepts a name that can be called, or says why it cannot. -/
def checkName (name : String) : Except Fault Unit :=
  if name.toList = [] then .error (.configuration name "function name is empty")
  else if name.toList.all isNameChar then .ok ()
  else .error (.configuration name
    "function name must not contain whitespace, parentheses or commas")

end Function
end Reckoner
