import DocTree.Config.Order
import DocTree.Options

/-!
The settings of the program and how they are taken from configuration values. Booleans and texts
are taken from values of other kinds as far as these have a plain meaning.
-/

namespace DocTree.Config

structure MdastSettings where
  flat : Bool
  noAsciiDocData : Bool
  deriving DecidableEq

structure ConvertSettings where
  backend : String
  pretty : Bool
  mdast : MdastSettings
  deriving DecidableEq

structure Settings where
  convert : ConvertSettings
  /-- The log filter for when the environment has none. -/
  level : String
  deriving DecidableEq

def MdastSettings.toOptions (s : MdastSettings) : Options := ⟨s.flat, s.noAsciiDocData⟩

def wrongKind {α : Type} (v : Value) (expected : String) : Except ConfigError α :=
  let file := match v with
    | .scalar _ file | .list _ file => file
    | .table _ => none
  .error (.wrongKind (.ofValue v) expected none file)

/-- A boolean, a number that is not zero, or one of the words for yes and no. -/
def toBool (v : Value) : Except ConfigError Bool :=
  match v with
  | .scalar (.bool b) _ => .ok b
  | .scalar (.int n) _ => .ok (n ≠ 0)
  | .scalar (.float x) _ => .ok (x != 0)
  | .scalar (.str s) file =>
    let word := Text.lower s
    if ["1", "true", "on", "yes"].contains word then .ok true
    else if ["0", "false", "off", "no"].contains word then .ok false
    else wrongKind (.scalar (.str word) file) "a boolean"
  | v => wrongKind v "a boolean"

/-- A text, or the text of a scalar. -/
def toText (v : Value) : Except ConfigError String :=
  match v with
  | .scalar (.str s) _ => .ok s
  | .scalar (.bool b) _ => .ok (if b then "true" else "false")
  | .scalar (.int n) _ => .ok (toString n.toInt)
  | .scalar (.float x) _ => .ok (showFloat "" x)
  | v => wrongKind v "a string"

/-- Where the settings of a group are found: under their names in a table, or in their declared
order in a list. -/
inductive Group where
  | named (entries : Entries)
  | listed (items : List Value)

def Group.ofValue (name : String) : Value → Except ConfigError Group
  | .table entries => .ok (.named entries)
  | .list items _ => .ok (.listed items)
  | v => .error (.notAGroup (.ofValue v) name)

/-- Takes the setting with a name and a place, if it is there. -/
def Group.take {α : Type} (g : Group) (name : String) (place : Nat)
    (decode : Value → Except ConfigError α) : Except ConfigError (Option α) :=
  let found := match g with
    | .named entries => (entries.lookup name, name)
    | .listed items => (items[place]?, "[" ++ toString place ++ "]")
  match found.1 with
  | none => .ok none
  | some v =>
    match decode v with
    | .ok a => .ok (some a)
    | .error e => .error (e.within found.2)

/-- Insists on a setting that was taken from a group of `size` settings. -/
def Group.require {α : Type} (g : Group) (group : String) (size : Nat) (name : String)
    (place : Nat) : Option α → Except ConfigError α
  | some a => .ok a
  | none =>
    match g with
    | .named _ => .error (.missingSetting name)
    | .listed _ => .error (.tooShort place group size)

/-- The fault of a setting that could not be taken. -/
def faults {α : Type} : Except ConfigError α → List ConfigError
  | .ok _ => []
  | .error e => [e]

/-- Fails with one of the faults in a group. In a list it is the first one, but the settings of a
table may come in any order. -/
def Group.check (g : Group) (order : Order) : List ConfigError → Except ConfigError Unit
  | [] => .ok ()
  | fault :: others =>
    match g with
    | .named _ => .error (order.firstFault fault others)
    | .listed _ => .error fault

def MdastSettings.ofValue (order : Order) (v : Value) : Except ConfigError MdastSettings := do
  let g ← Group.ofValue "MdastConfig" v
  let flat := g.take "flat" 0 toBool
  let bare := g.take "no_asciidoc_data" 1 toBool
  g.check order (faults flat ++ faults bare)
  return ⟨← g.require "MdastConfig" 2 "flat" 0 (← flat),
    ← g.require "MdastConfig" 2 "no_asciidoc_data" 1 (← bare)⟩

def ConvertSettings.ofValue (order : Order) (v : Value) : Except ConfigError ConvertSettings := do
  let g ← Group.ofValue "ConvertConfig" v
  let backend := g.take "backend" 0 toText
  let pretty := g.take "pretty" 1 toBool
  let mdast := g.take "mdast" 2 (MdastSettings.ofValue order)
  g.check order (faults backend ++ faults pretty ++ faults mdast)
  return ⟨← g.require "ConvertConfig" 3 "backend" 0 (← backend),
    ← g.require "ConvertConfig" 3 "pretty" 1 (← pretty),
    ← g.require "ConvertConfig" 3 "mdast" 2 (← mdast)⟩

def levelOfValue (v : Value) : Except ConfigError String := do
  let g ← Group.ofValue "LoggingConfig" v
  let level ← g.take "level" 0 toText
  g.require "LoggingConfig" 1 "level" 0 level

def Settings.ofEntries (order : Order) (entries : Entries) : Except ConfigError Settings := do
  let g := Group.named entries
  let convert := g.take "convert" 0 (ConvertSettings.ofValue order)
  let level := g.take "logging" 1 levelOfValue
  g.check order (faults convert ++ faults level)
  return ⟨← g.require "AppConfig" 2 "convert" 0 (← convert),
    ← g.require "AppConfig" 2 "logging" 1 (← level)⟩

end DocTree.Config
