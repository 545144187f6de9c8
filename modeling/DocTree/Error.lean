import DocTree.Source.Reader

/-!
What can go wrong around a conversion, which itself never fails.
-/

namespace DocTree

inductive ConvertError where
  | backendNotFound (name : String)
  | invalidSource (reason : String)
  | serialization (reason : String)
  deriving DecidableEq

namespace ConvertError

def message : ConvertError → String
  | .backendNotFound name => "Backend '" ++ name ++ "' not found"
  | .invalidSource reason => "Invalid source tree: " ++ reason
  | .serialization reason => "Serialization error: " ++ reason

/-- A failure to read or write the JSON of a converted tree. -/
def ofRead (e : Json.ReadError) : ConvertError := .serialization e.message

end ConvertError

def Node.parse (text : String) : Except ConvertError Node :=
  match Node.read text with
  | .ok n => .ok n
  | .error e => .error (.invalidSource e.message)

end DocTree
