import Reckoner.Text.Blank
import Reckoner.Text.Fields

/-! # Exclusions

The names of functions that discovery leaves out. They are written as a list with commas; blanks
around a name and fields without a name do not count. A name is excluded only as a whole.
-/

namespace Reckoner

/-- The names that discovery leaves out. -/
structure Exclusions where
  names : List String := []
  deriving DecidableEq, Repr

namespace Exclusions

/-- The exclusions that a list of names writes. -/
def ofList (text : String) : Exclusions :=
  ⟨(((Text.splitOn ',' text.toList).map Text.trim).filter (· ≠ [])).map String.ofList⟩

/-- The exclusions of a setting that may be absent. -/
def ofSetting (setting : Option String) : Exclusions :=
  match setting with
  | none => {}
  | some text => ofList text

def excludes (exclusions : Exclusions) (name : String) : Bool :=
  exclusions.names.contains name

end Exclusions
end Reckoner
