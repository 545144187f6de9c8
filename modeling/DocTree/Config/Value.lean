import DocTree.Text.LowerCase
import DocTree.Toml.Reader

/-!
Configuration values and how they are laid over each other. Tables are joined key by key; any
other value takes the place of what was there. Keys are in lower case.
-/

namespace DocTree.Config

inductive Scalar where
  | missing
  | bool (b : Bool)
  | int (n : Int64)
  | float (x : Float)
  | str (s : String)

/-- A configuration value. Scalars and lists know the file that they were read from; a table may
come from several files and knows none. -/
inductive Value where
  | scalar (value : Scalar) (file : Option String)
  | list (items : List Value) (file : Option String)
  | table (entries : List (String × Value))

abbrev Entries := List (String × Value)

namespace Value

def missing : Value := .scalar .missing none

def bool (b : Bool) : Value := .scalar (.bool b) none

def int (n : Int64) : Value := .scalar (.int n) none

def str (s : String) : Value := .scalar (.str s) none

def entries : Value → Entries
  | .table entries => entries
  | .scalar _ _ | .list _ _ => []

/-- The items of a list and its file; other values have none. -/
def items : Value → List Value × Option String
  | .list items file => (items, file)
  | .scalar _ _ | .table _ => ([], none)

end Value

def Entries.put (key : String) (value : Value) : Entries → Entries
  | [] => [(key, value)]
  | (k, v) :: rest => if k = key then (k, value) :: rest else (k, v) :: Entries.put key value rest

namespace Value

mutual

def overlay (key : String) (value : Value) (below : Entries) : Entries :=
  let key := Text.lower key
  match value with
  | .table entries =>
    Entries.put key (overlayAll entries ((below.lookup key).getD (.table []))) below
  | .scalar s file => Entries.put key (.scalar s file) below
  | .list items file => Entries.put key (.list items file) below
termination_by structural value

/-- Lays entries over a value. A value that is no table gives way to the first of them. -/
def overlayAll (entries : List (String × Value)) (below : Value) : Value :=
  match entries with
  | [] => below
  | entry :: rest => overlayAll rest (.table (overlayEntry entry below.entries))
termination_by structural entries

def overlayEntry (entry : String × Value) (below : Entries) : Entries :=
  match entry with
  | (key, value) => overlay key value below
termination_by structural entry

end

mutual

/-- The value of a TOML value in a file. Dates and times are texts. -/
def ofToml (file : Option String) : Toml → Value
  | .str s => .scalar (.str s) file
  | .int n => .scalar (.int n) file
  | .float x => .scalar (.float x) file
  | .bool b => .scalar (.bool b) file
  | .datetime text => .scalar (.str text) file
  | .list items => .list (ofTomls file items) file
  | .table _ entries => .table (ofEntries file entries)
  | .tables elements => .list (ofTables file elements) file
termination_by structural v => v

def ofTomls (file : Option String) : List Toml → List Value
  | [] => []
  | v :: rest => ofToml file v :: ofTomls file rest
termination_by structural vs => vs

def ofEntries (file : Option String) : List (String × Toml) → Entries
  | [] => []
  | (key, v) :: rest => (key, ofToml file v) :: ofEntries file rest
termination_by structural vs => vs

def ofTables (file : Option String) : List (List (String × Toml)) → List Value
  | [] => []
  | entries :: rest => .table (ofEntries file entries) :: ofTables file rest
termination_by structural vs => vs

end

end Value

end DocTree.Config
