import DocTree.Backend

/-!
Registries of backends. A backend is found by its name and by each of its further names; where
several backends claim a name, the one registered last has it.
-/

namespace DocTree

/-- The names of the backends, those registered last first. -/
structure Registry where
  entries : List (String × Backend) := []

namespace Registry

def empty : Registry := {}

def register (r : Registry) (b : Backend) : Registry :=
  ⟨b.keys.map (·, b) ++ r.entries⟩

def get? (r : Registry) (key : String) : Option Backend := r.entries.lookup key

def get (r : Registry) (key : String) : Except ConvertError Backend :=
  match r.get? key with
  | some b => .ok b
  | none => .error (.backendNotFound key)

def has (r : Registry) (key : String) : Bool := (r.get? key).isSome

/-- Whether a key finds a backend by its own name. -/
def isCanonical (r : Registry) (key : String) : Bool := (r.get? key).any (·.name = key)

/-- The backends that are found by their own names, in increasing order. -/
def names (r : Registry) : List String :=
  ((r.entries.map Prod.fst).eraseDups.filter r.isCanonical).mergeSort fun a b => !decide (b < a)

def serialize (r : Registry) (n : Node) (key : String) (indent : Bool) :
    Except ConvertError String := do
  return (← r.get key).serialize n indent

def withDefaults (o : Options) : Registry :=
  (empty.register .plain).register (.mdast o)

end Registry

end DocTree
