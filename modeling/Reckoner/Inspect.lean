import Reckoner.Registry
import Reckoner.Text.Quoted

/-! # Records for developers

One line of text for a registry, a catalogue and a runnable plugin, with the names of their fields.
Bodies of functions cannot be shown, so a record that holds one ends in two dots.
-/

namespace Reckoner.Inspect

def list (items : List String) : String :=
  "[" ++ String.intercalate ", " items ++ "]"

/-- Texts in brackets and quotes. -/
def texts (items : List String) : String :=
  list (items.map Text.quoted)

def truth (value : Bool) : String :=
  if value then "true" else "false"

/-- A named record. A record that is not `whole` ends in two dots. -/
def record (name : String) (fields : List (String × String)) (whole : Bool) : String :=
  let shown := fields.map fun field => field.1 ++ ": " ++ field.2
  name ++ " \x7b " ++ String.intercalate ", " (if whole then shown else shown ++ [".."]) ++ " \x7d"

/-! ## Records of the program's types -/

def exclusions (value : Exclusions) : String :=
  record "RegistryConfig" [("disabled", texts value.names)] true

def registry (value : Registry) : String :=
  record "FunctionRegistry"
    [("functions", texts value.functions.names), ("generation", toString value.generation),
     ("config", exclusions value.exclusions)] true

def candidate (value : Candidate) : String :=
  record "Candidate" [("label", Text.quoted value.label), ("annotated", truth value.isAnnotated)]
    true

def catalogue (value : Catalogue) : String :=
  record "Extensions"
    [("candidates", record "RwLock"
      [("data", list (value.candidates.map candidate)), ("poisoned", truth false)] false)] true

def operation (value : Plugin.Operation) : String :=
  record "Operation" [("name", Text.quoted value.name), ("params", texts value.params)] false

def info (value : Plugin.Meta) : String :=
  record "FunctionMeta"
    [("name", Text.quoted value.name), ("insert", Text.quoted value.insertText),
     ("description", Text.quoted value.description)] true

def runnable (value : Plugin.Runnable) : String :=
  record "FunctionAdapter" [("meta", info value.info), ("run", operation value.run)] true

end Reckoner.Inspect
