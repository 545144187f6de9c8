/-!
The commands of the program and the switches that it and its commands know.
-/

namespace DocTree.CommandLine

inductive Command where
  /-- Convert a document tree and write the new tree. -/
  | convert
  /-- Write the attributes that are put on record on the way. -/
  | data
  deriving DecidableEq

namespace Command

def name : Command → String
  | .convert => "convert"
  | .data => "data"

def ofName? (name : String) : Option Command :=
  if name = "convert" then some .convert else if name = "data" then some .data else none

end Command

/-- The command that explains others instead of being carried out. -/
def helpCommand : String := "help"

def isCommandName (word : String) : Bool :=
  (Command.ofName? word).isSome || word = helpCommand

inductive Flag where
  | listBackends
  | verbose
  | flat
  | noAsciiDocData
  | compact
  deriving DecidableEq

inductive Setting where
  | config
  | backend
  | output
  deriving DecidableEq

inductive Switch where
  | flag (f : Flag)
  | setting (s : Setting)
  | help
  | version
  deriving DecidableEq

/-- The program itself, or one of its commands: each knows switches of its own. -/
inductive Scope where
  | program
  | command (c : Command)
  deriving DecidableEq

namespace Scope

def isCommand : Scope → Bool
  | .program => false
  | .command _ => true

/-- The long switches of the program can also be given to every command, but for the version. -/
def long? (scope : Scope) (name : String) : Option Switch :=
  if name = "list-backends" then some (.flag .listBackends)
  else if name = "verbose" then some (.flag .verbose)
  else if name = "config" then some (.setting .config)
  else if name = "help" then some .help
  else
    match scope with
    | .program => if name = "version" then some .version else none
    | .command c =>
      if name = "flat" then some (.flag .flat)
      else if name = "no-asciidoc-data" then some (.flag .noAsciiDocData)
      else if name = "compact" then some (.flag .compact)
      else if name = "output" then some (.setting .output)
      else if name = "to" && c = .convert then some (.setting .backend)
      else none

def letter? (scope : Scope) (c : Char) : Option Switch :=
  if c = 'v' then some (.flag .verbose)
  else if c = 'h' then some .help
  else if c = 'V' && scope = .program then some .version
  else if c = 'o' && scope.isCommand then some (.setting .output)
  else none

end Scope

end DocTree.CommandLine
