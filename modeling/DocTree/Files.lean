import DocTree.Config.Loader
import DocTree.Text.Split

/-!
The text files below a working directory, and the paths by which they are read and written. A path
is walked name by name; a directory is there as soon as a file is somewhere below it. Nothing
outside of the working directory is known but that the directories above it are there.
-/

namespace DocTree

inductive FileFault where
  | missing
  | notDirectory
  | isDirectory
  /-- What was read is not UTF-8. -/
  | notText
  | other (reason : String)
  deriving DecidableEq

def FileFault.message : FileFault → String
  | .missing => "No such file or directory (os error 2)"
  | .notDirectory => "Not a directory (os error 20)"
  | .isDirectory => "Is a directory (os error 21)"
  | .notText => "stream did not contain valid UTF-8"
  | .other reason => reason

/-- The names of a path. A path that ends in a slash can only lead to a directory. -/
structure Path where
  absolute : Bool
  names : List String
  slashed : Bool
  deriving DecidableEq

namespace Path

/-- The path that a text spells, which is none when it is empty. -/
def read? (text : String) : Option Path :=
  if text.isEmpty then none
  else some ⟨text.toList.head? = some '/', (Text.split '/' text).filter (· ≠ ""),
    text.toList.getLast? = some '/'⟩

/-- The path without the names that stand for the directory they are in. -/
def trim (p : Path) : Path := ⟨p.absolute, p.names.filter (· ≠ "."), false⟩

def text (p : Path) : String :=
  (if p.absolute then "/" else "") ++ "/".intercalate p.names

/-- The path with an ending added to its last name. -/
def extend? (p : Path) (ending : String) : Option Path :=
  match p.names.getLast? with
  | none | some ".." => none
  | some name => some { p with names := p.names.dropLast ++ [name ++ ending] }

end Path

/-- The text of each file, under the names that lead to it from the working directory. -/
structure Files where
  entries : List (List String × String) := []
  deriving DecidableEq

namespace Files

def text? (fs : Files) (names : List String) : Option String := fs.entries.lookup names

def put (fs : Files) (names : List String) (text : String) : Files :=
  ⟨(names, text) :: fs.entries.filter (·.1 ≠ names)⟩

def isDirectory (fs : Files) (names : List String) : Bool :=
  fs.entries.any fun (file, _) => names.isPrefixOf file && file ≠ names

inductive Found where
  | file (names : List String) (text : String)
  | directory
  /-- Nothing, in a directory that is there. -/
  | vacant (names : List String)
  deriving DecidableEq

def walk (fs : Files) (here : List String) : List String → Except FileFault Found
  | [] => .ok .directory
  | name :: rest =>
    if name = "." then fs.walk here rest
    else if name = ".." then
      if here.isEmpty then
        if rest.all fun name => name = "." || name = ".." then .ok .directory
        else .error .missing
      else fs.walk here.dropLast rest
    else
      let next := here ++ [name]
      match fs.text? next with
      | some text => if rest.isEmpty then .ok (.file next text) else .error .notDirectory
      | none =>
        if fs.isDirectory next then fs.walk next rest
        else if rest.isEmpty then .ok (.vacant next)
        else .error .missing

def find (fs : Files) (p : Path) : Except FileFault Found :=
  if p.absolute && !p.names.isEmpty then .error .missing else fs.walk [] p.names

def read (fs : Files) (path : String) : Except FileFault String :=
  match Path.read? path with
  | none => .error .missing
  | some p => do
    match ← fs.find p with
    | .file _ text => if p.slashed then .error .notDirectory else .ok text
    | .directory => .error .isDirectory
    | .vacant _ => .error .missing

/-- Writes a text to a file, which need not be there yet; its directory has to. -/
def write (fs : Files) (path text : String) : Except FileFault Files :=
  match Path.read? path with
  | none => .error .missing
  | some p => do
    match ← fs.find p with
    | .file names _ | .vacant names =>
      if p.slashed then .error .isDirectory else .ok (fs.put names text)
    | .directory => .error .isDirectory

/-- The file of a configuration layer: the one of its path, or else the one whose name has
`.toml` added. -/
def sourceFile? (fs : Files) (path : String) : Option Config.SourceFile := do
  let p ← Path.read? path
  let trimmed := p.trim
  match fs.read path with
  | .ok text => some ⟨trimmed.text, text⟩
  | .error _ =>
    let q ← trimmed.extend? ".toml"
    match fs.find q with
    | .ok (.file _ text) => some ⟨q.text, text⟩
    | _ => none

/-- Builds the tree of files that are given by paths without `.` and `..`. -/
def ofList (files : List (String × String)) : Files :=
  files.foldl
    (fun fs (path, text) => fs.put ((Text.split '/' path).filter fun n => n ≠ "" && n ≠ ".") text)
    {}

end Files

end DocTree
