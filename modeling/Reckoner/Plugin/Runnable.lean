import Reckoner.Plugin

/-! # Runnable plugins

A plugin is runnable if it has a `run` operation. Its function takes as many arguments as the
operation has parameters, and an answer that is no number becomes a fault. `invoke_toFunction` says
that a call of that function finds nothing left to check.
-/

namespace Reckoner.Plugin

/-- A plugin's description with its `run` operation. -/
structure Runnable where
  info : Meta
  run : Operation

namespace Runnable

/-- A plugin's first operation named `run` makes it runnable. -/
def ofPlugin (plugin : Plugin) : Except Fault Runnable :=
  match plugin.run? with
  | some run => .ok ⟨plugin.info, run⟩
  | none => .error (.configuration plugin.info.name
      "plugins carrying function metadata must define a run(...) operation")

/-- One argument for each parameter. -/
def arity (plugin : Runnable) : Arity :=
  .exactly plugin.run.params.length

/-- Runs the operation on a matching argument count and takes the number out of its answer. -/
def invoke (plugin : Runnable) (args : List Float) : Except Fault Float :=
  let name := plugin.info.name
  if plugin.arity.accepts args.length then
    match plugin.run.body args with
    | .returned value =>
      match value.toNumber with
      | .ok x => .ok x
      | .error reason => .error (.invocationFailure name reason)
    | .failed reason => .error (.invocationFailure name reason)
    | .crashed note => .error (Function.crashFault name note)
  else .error (.arityMismatch name plugin.arity args.length)

/-- The function of a runnable plugin. -/
def toFunction (plugin : Runnable) : Function where
  name := plugin.info.name
  insertText := plugin.info.insertText
  description := plugin.info.description
  arity := plugin.arity
  body := fun args => Outcome.ofExcept (plugin.invoke args)

theorem invoke_toFunction (plugin : Runnable) (args : List Float) :
    plugin.toFunction.invoke args = plugin.invoke args := by
  by_cases h : plugin.arity.accepts args.length = true
  · cases hi : plugin.invoke args <;>
      simp [Function.invoke, toFunction, h, hi, Outcome.ofExcept]
  · simp [Function.invoke, toFunction, invoke, h]

end Runnable
end Reckoner.Plugin
