import Reckoner.Expression.Value
import Reckoner.Number.Display

/-! # Readouts

What a front end shows for a text. While a text is typed a fault shows a neutral placeholder, on
submission it shows as an error; the fault itself is kept in both modes. A blank text shows zero
without being evaluated.
-/

namespace Reckoner

/-- When a readout is asked for. -/
inductive Mode where
  /-- On every keystroke. -/
  | live
  /-- On submission. -/
  | final
  deriving DecidableEq, Repr

namespace Mode

/-- Every mode, each once. -/
def all : List Mode := [.live, .final]

/-- The word for a mode. -/
def word : Mode → String
  | live => "live"
  | final => "final"

/-- What stands for a fault. -/
def faultText : Mode → String
  | live => "…"
  | final => "Error"

end Mode

/-- The text to show, with the value or the fault behind it. -/
structure Readout where
  text : String
  value : Option Float
  fault : Option Fault
  deriving DecidableEq

namespace Readout

/-- The readout of a blank text. -/
def blank : Readout := ⟨"0", none, none⟩

/-- The readout of an evaluation. -/
def ofResult (result : Except Fault Float) (mode : Mode) : Readout :=
  match result with
  | .ok x => ⟨Number.display x, some x, none⟩
  | .error fault => ⟨mode.faultText, none, some fault⟩

end Readout

/-- The readout of a text under a set of functions. -/
def Repertoire.readout (functions : Repertoire) (text : String) (mode : Mode) : Readout :=
  if Text.allBlank text.toList then .blank
  else .ofResult (functions.evaluate text) mode

end Reckoner
