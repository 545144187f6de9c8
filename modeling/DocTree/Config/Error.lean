import DocTree.Config.Value
import DocTree.Text.Quoted

/-!
Why a configuration is refused.
-/

namespace DocTree.Config

inductive Found where
  | scalar (value : Scalar)
  | list
  | table

/-- Doubles show all their places; how a whole one ends depends on who shows it. -/
def showFloat (wholeEnd : String) (x : Float) : String :=
  if x.isNaN then "NaN"
  else if x.isInf then (if x < 0 then "-inf" else "inf")
  else Decimal.Layout.writeFloat ⟨none, none, wholeEnd, true, .up⟩ x

namespace Found

def ofValue : Value → Found
  | .scalar value _ => .scalar value
  | .list _ _ => .list
  | .table _ => .table

def describe (wholeEnd : String) : Found → String
  | .scalar .missing => "unit value"
  | .scalar (.bool b) => "boolean \x60" ++ (if b then "true" else "false") ++ "\x60"
  | .scalar (.int n) => "integer \x60" ++ toString n.toInt ++ "\x60"
  | .scalar (.float x) => "floating point \x60" ++ showFloat wholeEnd x ++ "\x60"
  | .scalar (.str s) => "string " ++ Text.quote s
  | .list => "sequence"
  | .table => "map"

end Found

inductive ConfigError where
  /-- A setting has a value of a wrong kind. The key is the path to it. -/
  | wrongKind (found : Found) (expected : String) (key : Option String) (file : Option String)
  /-- Something else stands where a group of settings is due. -/
  | notAGroup (found : Found) (group : String)
  /-- A list in the place of a group ends too early. -/
  | tooShort (found : Nat) (group : String) (size : Nat)
  | missingSetting (name : String)
  | fileNotFound (path : String)
  | badFile (path : String)
  | badPath (text : String)

namespace ConfigError

/-- The error as it is seen from around the value where it arose. -/
def within (step : String) : ConfigError → ConfigError
  | .wrongKind found expected key file =>
    let key := match key with
      | none => step
      | some key => if key.startsWith "[" then step ++ key else step ++ "." ++ key
    .wrongKind found expected (some key) file
  | e => e

def message : ConfigError → String
  | .wrongKind found expected key file =>
    "invalid type: " ++ found.describe "" ++ ", expected " ++ expected ++
      key.elim "" (fun key => " for key \x60" ++ key ++ "\x60") ++ file.elim "" (" in " ++ ·)
  | .notAGroup found group =>
    "invalid type: " ++ found.describe ".0" ++ ", expected struct " ++ group
  | .tooShort found group size =>
    "invalid length " ++ toString found ++ ", expected struct " ++ group ++ " with " ++
      toString size ++ (if size = 1 then " element" else " elements")
  | .missingSetting name => "missing field \x60" ++ name ++ "\x60"
  | .fileNotFound path => "configuration file \"" ++ path ++ "\" not found"
  | .badFile path => "malformed configuration file in " ++ path
  | .badPath text => "malformed key path " ++ Text.quote text

end ConfigError

end DocTree.Config
