import Reckoner.Registry.Discovery

/-! # The registry

The registry publishes a repertoire and counts how often it did: the generation. Discovery adds
what the catalogue offers to the published repertoire, a reload starts from the empty one, and a
single function may be registered by hand. What is refused publishes nothing, and a change of the
catalogue shows only at the next pass.
-/

namespace Reckoner

/-- The published functions, their generation, and where more come from. -/
structure Registry where
  catalogue : Catalogue
  exclusions : Exclusions
  functions : Repertoire
  generation : Nat

namespace Registry

/-- A registry that has published nothing yet. -/
def create (catalogue : Catalogue) (exclusions : Exclusions) : Registry :=
  ⟨catalogue, exclusions, .empty, 0⟩

/-- Adds a candidate to the catalogue. -/
def install (registry : Registry) (candidate : Candidate) : Registry :=
  { registry with catalogue := registry.catalogue.install candidate }

/-- Removes the candidates with a label from the catalogue. -/
def uninstall (registry : Registry) (label : String) : Registry :=
  { registry with catalogue := registry.catalogue.uninstall label }

/-- Publishes a repertoire under the next generation. -/
def publish (registry : Registry) (functions : Repertoire) : Registry :=
  { registry with functions := functions, generation := registry.generation + 1 }

/-- A pass over the catalogue on top of a repertoire, published. -/
def discoverFrom (registry : Registry) (start : Repertoire) : Registry × Discovery.Report :=
  let (found, verdicts) :=
    Discovery.scan registry.exclusions start registry.catalogue.candidates
  (registry.publish found, .ofVerdicts verdicts)

/-- Registers what the catalogue offers on top of the published functions. -/
def discover (registry : Registry) : Registry × Discovery.Report :=
  registry.discoverFrom registry.functions

/-- Forgets the published functions and registers what the catalogue offers. -/
def reload (registry : Registry) : Registry × Discovery.Report :=
  registry.discoverFrom .empty

/-- Registers one function by hand. -/
def register (registry : Registry) (f : Function) : Except Fault Registry :=
  match registry.functions.insert f with
  | .ok functions => .ok (registry.publish functions)
  | .error fault => .error fault

end Registry
end Reckoner
