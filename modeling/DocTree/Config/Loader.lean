import DocTree.Config.KeyPath
import DocTree.Config.Settings

/-!
Loading the settings in layers: built-in defaults at the bottom, then files in the order in which
they are named, then single keys. A later layer counts where several have a setting.
-/

namespace DocTree.Config

/-- A file that was found: the path by which messages name it, and its text. -/
structure SourceFile where
  name : String
  text : String
  deriving DecidableEq

/-- A layer that is read from a file. One that is not required may be absent. -/
structure FileLayer where
  path : String
  required : Bool
  deriving DecidableEq

/-- The file that is read from the working directory when it is there. -/
def localFile : String := "adoc-json.toml"

/-- The bottom layer, which has every setting. -/
def defaults : Entries :=
  [("convert", .table [
      ("backend", .str "mdast"),
      ("pretty", .bool true),
      ("mdast", .table [("flat", .bool false), ("no_asciidoc_data", .bool false)])]),
    ("logging", .table [("level", .str "warn")])]

structure Loader where
  files : List FileLayer := []
  overrides : List (KeyPath × Value) := []

namespace Loader

def withFile (l : Loader) (path : String) : Loader :=
  { l with files := l.files ++ [⟨path, true⟩] }

def withOptionalFile (l : Loader) (path : String) : Loader :=
  { l with files := l.files ++ [⟨path, false⟩] }

/-- A value that is set for a key takes the place of one that was set for it before. -/
def setOverride (l : Loader) (key : String) (value : Value) : Except ConfigError Loader :=
  match KeyPath.read key with
  | some path => .ok { l with overrides := l.overrides.filter (·.1 ≠ path) ++ [(path, value)] }
  | none => .error (.badPath key)

/-- Lays the entries of a file over others, one after the other. A key at the top of a file may be a
path. -/
def overlayFile (below entries : Entries) : Entries :=
  entries.foldl
    (fun below (key, v) => ((KeyPath.read key).getD (.single key)).assign v below) below

/-- Lays files over entries; `place` is the number of files that were read before. -/
def overlayFiles (order : Order) (find : String → Option SourceFile) :
    (place : Nat) → List FileLayer → Entries → Except ConfigError Entries
  | _, [], below => .ok below
  | place, layer :: rest, below =>
    match find layer.path with
    | none =>
      if layer.required then .error (.fileNotFound layer.path)
      else overlayFiles order find place rest below
    | some file =>
      match Toml.read file.text with
      | none => .error (.badFile file.name)
      | some entries =>
        overlayFiles order find (place + 1) rest
          (overlayFile below (order.ofFile place (Value.ofEntries (some file.name) entries)))

def entries (l : Loader) (find : String → Option SourceFile) (order : Order) :
    Except ConfigError Entries := do
  let below ← overlayFiles order find 0 l.files defaults
  return (order.ofOverrides l.overrides).foldl (fun below (path, v) => path.assign v below) below

def build (l : Loader) (find : String → Option SourceFile) (order : Order := .asWritten) :
    Except ConfigError Settings := do
  Settings.ofEntries order (← l.entries find order)

end Loader

end DocTree.Config
