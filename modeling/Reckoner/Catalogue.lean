import Reckoner.Plugin.Runnable

/-! # The catalogue of candidates

Candidates are what discovery looks at: a label and a way to build a function, either directly or
as a plugin. Building may fail or crash without harm to other candidates. The catalogue keeps them
in the order of their installation; labels may repeat.
-/

namespace Reckoner

/-- How a candidate builds its function. -/
inductive Candidate.Recipe where
  | direct (built : Outcome Fault Function)
  | annotated (built : Outcome Fault Plugin)

/-- One entry of the catalogue. -/
structure Candidate where
  label : String
  recipe : Candidate.Recipe

namespace Candidate

/-- Whether the candidate builds a plugin. -/
def isAnnotated (candidate : Candidate) : Bool :=
  match candidate.recipe with
  | .direct _ => false
  | .annotated _ => true

/-- The fault of a candidate that crashed while it was built. -/
def crashFault (label : String) (note : Option String) : Fault :=
  .configuration label ("instantiation panicked: " ++ Outcome.noteText note)

/-- Builds the function. A plugin has to be runnable. -/
def instantiate (candidate : Candidate) : Except Fault Function :=
  match candidate.recipe with
  | .direct (.returned f) => .ok f
  | .direct (.failed fault) => .error fault
  | .direct (.crashed note) => .error (crashFault candidate.label note)
  | .annotated (.returned plugin) =>
    (Plugin.Runnable.ofPlugin plugin).map Plugin.Runnable.toFunction
  | .annotated (.failed fault) => .error fault
  | .annotated (.crashed note) => .error (crashFault candidate.label note)

end Candidate

/-- Candidates in the order of their installation. -/
structure Catalogue where
  candidates : List Candidate

namespace Catalogue

def empty : Catalogue := ⟨[]⟩

/-- Adds a candidate at the end. -/
def install (catalogue : Catalogue) (candidate : Candidate) : Catalogue :=
  ⟨catalogue.candidates ++ [candidate]⟩

/-- Removes every candidate with a label. -/
def uninstall (catalogue : Catalogue) (label : String) : Catalogue :=
  ⟨catalogue.candidates.filter fun candidate => candidate.label ≠ label⟩

/-- How many candidates `uninstall` would remove. -/
def countLabel (catalogue : Catalogue) (label : String) : Nat :=
  catalogue.candidates.countP fun candidate => candidate.label = label

def size (catalogue : Catalogue) : Nat :=
  catalogue.candidates.length

end Catalogue
end Reckoner
