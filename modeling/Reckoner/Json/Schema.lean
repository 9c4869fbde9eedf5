import Reckoner.Json.Record
import Reckoner.Json.Writer
import Reckoner.Readout
import Reckoner.Registry

/-! # The JSON forms of the program's types

Each type has a value that is written for it and a reading of documents that takes it back.
An arity is an object whose one key is its case; kinds, severities and modes are words; a
list of exclusions is a record in which a missing list is empty.
-/

namespace Reckoner

open Json (Document)

/-! ## Arities -/

def Arity.toJson : Arity → Json
  | exactly count => .object [("fixed", .ofNat count)]
  | atLeast least => .object [("variadic", .object [("min", .ofNat least)])]

def Arity.ofDocument? : Document → Option Arity
  | .object [(some key, payload)] =>
    if key = "fixed" then payload.count?.map exactly
    else if key = "variadic" then
      match payload.fields? ["min"] 1 with
      | some [some least] => least.count?.map atLeast
      | _ => none
    else none
  | _ => none

/-! ## Words -/

def Fault.Kind.toJson (kind : Fault.Kind) : Json :=
  .text kind.code

def Fault.Kind.ofDocument? : Document → Option Fault.Kind :=
  Document.word? Fault.Kind.all Fault.Kind.code

def Severity.toJson (severity : Severity) : Json :=
  .text severity.word

def Severity.ofDocument? : Document → Option Severity :=
  Document.word? Severity.all Severity.word

def Mode.toJson (mode : Mode) : Json :=
  .text mode.word

def Mode.ofDocument? : Document → Option Mode :=
  Document.word? Mode.all Mode.word

/-! ## Exclusions -/

def Exclusions.toJson (exclusions : Exclusions) : Json :=
  .object [("disabled", .ofTexts exclusions.names)]

def Exclusions.ofDocument? (document : Document) : Option Exclusions :=
  match document.fields? ["disabled"] 0 with
  | some [none] => some {}
  | some [some names] => names.strings?.map fun names => { names := names }
  | _ => none

/-! ## Reports -/

def Discovery.Failure.toJson (failure : Discovery.Failure) : Json :=
  .object [("candidate", .text failure.candidate), ("kind", failure.kind.toJson),
    ("message", .text failure.message)]

/-- The members of a report. -/
def Discovery.Report.members (report : Discovery.Report) : List (String × Json) :=
  [("disabled", .ofTexts report.disabled), ("duplicates", .ofTexts report.duplicates),
    ("failures", .array (report.failures.map Discovery.Failure.toJson)),
    ("registered", .ofTexts report.registered)]

/-- What a front end is told about a function. -/
def Function.toJson (f : Function) : Json :=
  .object [("arity", f.arity.toJson), ("description", .text f.description),
    ("insertText", .text f.insertText), ("name", .text f.name)]

/-- The JSON value of a float; one that is not finite is written as null. -/
def Json.ofFloat (x : Float) : Json :=
  match Binary64.view x with
  | .finite _ _ => .number (.real x)
  | _ => .null

end Reckoner
