import Reckoner.Function
import Reckoner.Value

/-! # Plugins

A plugin is no function by itself: it describes one and lists operations, of which the one named
`run` holds the arithmetic.
-/

namespace Reckoner

/-- What a plugin says about its function. -/
structure Plugin.Meta where
  name : String
  insertText : String
  description : String := ""
  deriving DecidableEq

/-- A named operation with its parameters. -/
structure Plugin.Operation where
  name : String
  params : List String
  body : List Float → Outcome String Value

/-- A description and a table of operations. -/
structure Plugin where
  info : Plugin.Meta
  operations : List Plugin.Operation

namespace Plugin

/-- The name of the operation that computes. -/
def runName : String := "run"

/-- The first operation named `run`. -/
def run? (plugin : Plugin) : Option Operation :=
  plugin.operations.find? fun operation => operation.name = runName

end Plugin
end Reckoner
