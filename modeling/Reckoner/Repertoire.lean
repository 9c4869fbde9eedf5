import Reckoner.Function

/-! # Repertoires

The functions that an expression may call, in the order of their insertion. `insert` refuses a name
that cannot be called and a name that is taken, so what it builds has distinct, callable names
(`contains_iff`), and it guards what it stores.
-/

namespace Reckoner

/-- Functions in insertion order. -/
structure Repertoire where
  functions : List Function

namespace Repertoire

def empty : Repertoire := ⟨[]⟩

/-- The function of a name. -/
def get? (known : Repertoire) (name : String) : Option Function :=
  known.functions.find? fun f => f.name = name

def contains (known : Repertoire) (name : String) : Bool :=
  (known.get? name).isSome

def names (known : Repertoire) : List String :=
  known.functions.map Function.name

def size (known : Repertoire) : Nat :=
  known.functions.length

/-- Adds a function at the end unless its name is unusable or taken. The name is looked at before
the functions are, so an unusable name is never reported as taken. -/
def insert (known : Repertoire) (f : Function) : Except Fault Repertoire :=
  match Function.checkName f.name with
  | .error fault => .error fault
  | .ok () =>
    if known.contains f.name then .error (.duplicateName f.name)
    else .ok ⟨known.functions ++ [f.guard]⟩

@[simp] theorem names_empty : empty.names = [] := rfl

theorem contains_iff {known : Repertoire} {name : String} :
    known.contains name = true ↔ name ∈ known.names := by
  simp [contains, get?, names]

end Repertoire
end Reckoner
