import DocTree.Config.Value

/-!
Key paths such as `convert.mdast.flat` or `list[0]`, which name a place in a configuration.
-/

namespace DocTree.Config

/-- A step of a path: to the value of a key, or to an item of a list. Negative places count from
the end. -/
inductive Step where
  | key (name : String)
  | item (place : Int)
  deriving DecidableEq

structure KeyPath where
  root : String
  steps : List Step
  deriving DecidableEq

namespace KeyPath

def isKeyChar (c : Char) : Bool := c.isAlphanum || c = ' ' || c = '_' || c = '-'

def readName (cs : List Char) : Option (String × List Char) :=
  let name := cs.takeWhile isKeyChar
  if name.isEmpty then none else some (String.ofList name, cs.dropWhile isKeyChar)

def isGap (c : Char) : Bool := c = ' ' || c = '\t'

/-- The place of an item and the bracket behind it. -/
def readPlace (cs : List Char) : Option (Int × List Char) :=
  let cs := cs.dropWhile isGap
  let (negative, cs) := match cs with
    | '-' :: cs => (true, cs)
    | cs => (false, cs)
  let digits := cs.takeWhile Char.isDigit
  let n : Nat := digits.foldl (fun n c => n * 10 + (c.toNat - 48)) 0
  match (cs.dropWhile Char.isDigit).dropWhile isGap with
  | ']' :: rest =>
    if digits.isEmpty || 9223372036854775807 < n then none
    else some (if negative then -(n : Int) else n, rest)
  | _ => none

/-- The steps that a text spells; the count bounds how many they are. -/
def readSteps : (count : Nat) → List Char → Option (List Step)
  | _, [] => some []
  | 0, _ => none
  | count + 1, '.' :: cs => do
    let (name, rest) ← readName cs
    return .key name :: (← readSteps count rest)
  | count + 1, '[' :: cs => do
    let (place, rest) ← readPlace cs
    return .item place :: (← readSteps count rest)
  | _, _ => none

def read (text : String) : Option KeyPath := do
  let (root, rest) ← readName text.toList
  return ⟨root, ← readSteps rest.length rest⟩

def single (key : String) : KeyPath := ⟨key, []⟩

def index (place : Int) (length : Nat) : Nat :=
  if place < 0 then length - place.natAbs else place.natAbs

/-- Changes the value at the end of steps; on the way, values that cannot be entered are replaced
by tables and lists that can. A key at the end is given to `lay` with the entries around it. -/
def change (lay : String → Entries → Entries) (set : Value) : List Step → Value → Value
  | [], _ => set
  | [.key name], v => .table (lay name v.entries)
  | .key name :: rest, v =>
    let key := Text.lower name
    let inner := change lay set rest ((v.entries.lookup key).getD .missing)
    .table (Entries.put key inner v.entries)
  | .item place :: rest, v =>
    let (items, file) := v.items
    let i := index place items.length
    let items := items ++ List.replicate (i + 1 - items.length) Value.missing
    .list (items.set i (change lay set rest (items.getD i .missing))) file

def assign (path : KeyPath) (value : Value) (entries : Entries) : Entries :=
  (change (fun name => value.overlay name) value (.key path.root :: path.steps)
    (.table entries)).entries

end KeyPath

end DocTree.Config
