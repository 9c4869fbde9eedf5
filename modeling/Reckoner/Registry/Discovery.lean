import Reckoner.Catalogue
import Reckoner.Exclusions
import Reckoner.Repertoire

/-! # Discovery

A pass goes over the candidates in order and gives each one verdict. `judge` decides a verdict
from the exclusions and the functions known so far; only a registered candidate adds to them.
A report sorts the verdicts of a pass into four lists, each in candidate order.
-/

namespace Reckoner.Discovery

/-- Why a candidate could not be loaded. -/
structure Failure where
  candidate : String
  kind : Fault.Kind
  message : String
  deriving DecidableEq, Repr

/-- What becomes of one candidate. -/
inductive Verdict where
  | registered (name : String)
  /-- An earlier function holds the name. -/
  | duplicate (name : String)
  /-- The name is excluded. -/
  | disabled (name : String)
  | failed (failure : Failure)
  deriving DecidableEq, Repr

def Failure.ofFault (label : String) (fault : Fault) : Failure :=
  ⟨label, fault.kind, fault.message⟩

/-- One candidate's verdict, and the functions known after it. A fault on the way to a function is
a failure whatever its kind; only a name refused on insertion makes a duplicate. -/
def judge (exclusions : Exclusions) (known : Repertoire) (candidate : Candidate) :
    Repertoire × Verdict :=
  match candidate.instantiate with
  | .error fault => (known, .failed (.ofFault candidate.label fault))
  | .ok f =>
    if exclusions.excludes f.name then (known, .disabled f.name)
    else
      match known.insert f with
      | .ok next => (next, .registered f.name)
      | .error (.duplicateName _) => (known, .duplicate f.name)
      | .error fault => (known, .failed (.ofFault candidate.label fault))

/-- The verdicts of a pass, and the functions known after it. -/
def scan (exclusions : Exclusions) (known : Repertoire) :
    List Candidate → Repertoire × List Verdict
  | [] => (known, [])
  | candidate :: rest =>
    let (next, verdict) := judge exclusions known candidate
    let (last, verdicts) := scan exclusions next rest
    (last, verdict :: verdicts)

/-! ## Reports

Each verdict contributes to exactly one of the four lists. -/

/-- The verdicts of a pass, sorted. -/
structure Report where
  registered : List String
  duplicates : List String
  disabled : List String
  failures : List Failure
  deriving DecidableEq, Repr

def Verdict.registered? : Verdict → Option String
  | registered name => some name
  | _ => none

def Verdict.duplicate? : Verdict → Option String
  | duplicate name => some name
  | _ => none

def Verdict.disabled? : Verdict → Option String
  | disabled name => some name
  | _ => none

def Verdict.failure? : Verdict → Option Failure
  | failed failure => some failure
  | _ => none

def Report.ofVerdicts (verdicts : List Verdict) : Report where
  registered := verdicts.filterMap Verdict.registered?
  duplicates := verdicts.filterMap Verdict.duplicate?
  disabled := verdicts.filterMap Verdict.disabled?
  failures := verdicts.filterMap Verdict.failure?

end Reckoner.Discovery
