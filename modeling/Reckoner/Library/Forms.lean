import Reckoner.Catalogue

/-! # Forms of standard functions

Most standard functions apply one float operation to one or two arguments. A guard checks the
argument count before a body runs, so the cases with too few arguments are never reached through a
call.
-/

namespace Reckoner.Library

/-- A function of one argument. -/
def unary (name description : String) (f : Float → Float) : Function where
  name := name
  description := description
  body := fun
    | x :: _ => .returned (f x)
    | [] => .crashed none

/-- A plugin whose `run` operation takes the named parameters. -/
def plugin (name description : String) (params : List String)
    (body : List Float → Outcome String Value) : Plugin where
  info := { name := name, insertText := name ++ "(", description := description }
  operations := [{ name := Plugin.runName, params := params, body := body }]

/-- A plugin with a float operation on two arguments. -/
def binary (name description first second : String) (f : Float → Float → Float) : Plugin :=
  plugin name description [first, second] fun
    | x :: y :: _ => .returned (.number (f x y))
    | _ => .crashed none

/-- A candidate that always builds the same function. -/
def direct (label : String) (f : Function) : Candidate :=
  ⟨label, .direct (.returned f)⟩

/-- A candidate that always builds the same plugin. -/
def annotated (label : String) (built : Plugin) : Candidate :=
  ⟨label, .annotated (.returned built)⟩

end Reckoner.Library
