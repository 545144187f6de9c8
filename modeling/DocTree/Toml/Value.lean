import DocTree.Decimal.Layout

/-!
TOML values and the rules by which the lines of a document build tables. A table is made by one
header or by the dotted keys of one place; it may be made earlier, without a header, on the path
to another one.
-/

namespace DocTree

inductive Toml.Origin where
  /-- Written in braces; nothing can be added to it. -/
  | inline
  /-- On the path of a dotted key. -/
  | dotted
  /-- On the path of a header. -/
  | implied
  /-- Named by a header. -/
  | declared
  deriving DecidableEq

inductive Toml where
  | str (s : String)
  | int (n : Int64)
  | float (x : Float)
  | bool (b : Bool)
  /-- A date, a time or both, in their normal form. -/
  | datetime (text : String)
  | list (items : List Toml)
  | table (origin : Toml.Origin) (entries : List (String × Toml))
  /-- Tables of one name, each with a header in double brackets; the one opened last comes last. -/
  | tables (elements : List (List (String × Toml)))
  deriving Inhabited

namespace Toml

abbrev Entries := List (String × Toml)

def Entries.put (key : String) (value : Toml) : Entries → Entries
  | [] => [(key, value)]
  | (k, v) :: rest => if k = key then (k, value) :: rest else (k, v) :: Entries.put key value rest

/-- Changes the table at the end of a path, where tables that are not there yet are made. Dotted
keys may only pass tables that have no header, and cannot pass inline ones. -/
def changeAt (origin : Origin) (change : Option Origin → Entries → Option Entries) :
    List String → Option Origin → Entries → Option Entries
  | [], here, entries => change here entries
  | key :: path, _, entries => do
    let value ←
      match entries.lookup key with
      | none => do
        let inner ← changeAt origin change path (some origin) []
        pure (.table origin inner)
      | some (.table made inner) =>
        if made = .inline || (origin = .dotted && made = .declared) then none
        else do
          let inner ← changeAt origin change path (some made) inner
          pure (.table made inner)
      | some (.tables elements) => do
        let inner ← changeAt origin change path (some .declared) (elements.getLastD [])
        pure (.tables (elements.dropLast ++ [inner]))
      | some _ => none
    pure (Entries.put key value entries)

def addNew (key : String) (value : Toml) (entries : Entries) : Option Entries :=
  if (entries.lookup key).isSome then none else some (entries ++ [(key, value)])

/-- Adds the value of a possibly dotted key to a table. A dotted key ends in a table that dotted
keys have made. -/
def addValue (path : List String) (key : String) (value : Toml) (entries : Entries) :
    Option Entries :=
  changeAt .dotted
    (fun made entries => if made.all (· = .dotted) then addNew key value entries else none)
    path none entries

/-- Opens the table of a header. Only a table that is implied so far may be there already. -/
def openTable (path : List String) (key : String) (entries : Entries) : Option Entries :=
  changeAt .implied
    (fun _ entries =>
      match entries.lookup key with
      | none => some (entries ++ [(key, .table .declared [])])
      | some (.table .implied inner) => some (Entries.put key (.table .declared inner) entries)
      | some _ => none)
    path none entries

def openElement (path : List String) (key : String) (entries : Entries) : Option Entries :=
  changeAt .implied
    (fun _ entries =>
      match entries.lookup key with
      | none => some (entries ++ [(key, .tables [[]])])
      | some (.tables elements) => some (Entries.put key (.tables (elements ++ [[]])) entries)
      | some _ => none)
    path none entries

/-- Adds the value of a key to the table that a header has opened. -/
def addUnder (header path : List String) (key : String) (value : Toml) (entries : Entries) :
    Option Entries :=
  changeAt .implied (fun _ entries => addValue path key value entries) header none entries

end Toml

end DocTree
