import DocTree.CommandLine.Implied
import DocTree.LogFilter
import DocTree.Program.Host
import DocTree.Program.Outcome
import DocTree.Registry

/-!
A run of the program: its command line is read, the configuration is loaded, and the one command is
carried out. Whatever can fail is tried before anything is written or printed, and the result is
written once, at the end.
-/

namespace DocTree.Program

open CommandLine (Invocation Request)
open Config (Loader Settings)

variable {m : Type → Type} [Monad m]

/-- The layers of the configuration: the local file if there is one, then the file that is asked
for. -/
def loader (config : Option String) : Loader :=
  let base := Loader.withOptionalFile {} Config.localFile
  config.elim base base.withFile

/-- Loads the configuration. All files are looked up before any of them is read as such. -/
def loadSettings (host : Host m) (config : Option String) : ExceptT Failure m Settings := do
  let l := loader config
  let found ← l.files.mapM fun layer => do
    let file ← host.sourceFile? layer.path
    return (layer.path, file)
  match l.build (fun path => (found.lookup path).join) host.order with
  | .ok settings => return settings
  | .error e => throw (.configuration e)

def readInput (host : Host m) (input : String) : ExceptT Failure m String := do
  match ← if input = standardInput then host.readInput else host.readFile input with
  | .ok text => return text
  | .error fault => throw (.unreadable input fault)

def readDocument (host : Host m) (input : String) : ExceptT Failure m Node := do
  match Node.parse (← readInput host input) with
  | .ok n => return n
  | .error e => throw (.conversion e)

structure Answer where
  text : String
  logs : List LogRecord

/-- The document in the format of a backend. The backend has to be known before the input is
touched. -/
def convert (host : Host m) (settings : Settings) (r : Request) : ExceptT Failure m Answer := do
  let registry := Registry.withDefaults (r.options settings.convert.mdast)
  match registry.get (r.backend.getD settings.convert.backend) with
  | .error e => throw (.conversion e)
  | .ok backend =>
    let n ← readDocument host r.input
    return ⟨backend.serialize n (r.indent settings.convert.pretty), backend.trace n⟩

def recordsText (records : List AttributeRecord) (indent : Bool) : String :=
  let tree := Json.arr (records.map AttributeRecord.toJson)
  if indent then tree.pretty else tree.compact

/-- The attributes that an Mdast conversion puts on record. -/
def collect (host : Host m) (settings : Settings) (r : Request) : ExceptT Failure m Answer := do
  let n ← readDocument host r.input
  let backend := Backend.mdast (r.options settings.convert.mdast)
  let records := (backend.convert n).data
  return ⟨recordsText records (r.indent settings.convert.pretty),
    backend.trace n ++
      [.event .program .debug "collected attribute records" [("records", toString records.length)]]⟩

def answer (host : Host m) (settings : Settings) (r : Request) : ExceptT Failure m Answer :=
  match r.command with
  | .convert => convert host settings r
  | .data => collect host settings r

/-- A computation that prints texts to the standard output. -/
abbrev Printing (m : Type → Type) : Type → Type := StateT String m

def print (text : String) : Printing m Unit := modify (· ++ text)

/-- Writes a text and a line end to a file, or prints them. -/
def deliver (host : Host m) (output : Option String) (text : String) :
    Printing m (Option Failure) := do
  match output with
  | none =>
    print (text ++ "\n")
    return none
  | some path =>
    match ← host.writeFile path (text ++ "\n") with
    | .ok _ => return none
    | .error fault => return some (.unwritable path fault)

/-- Carries out a command. The log records are those of its conversion, even when the result cannot
be written. -/
def carryOut (host : Host m) (settings : Settings) (r : Request) : Printing m Report := do
  match ← (answer host settings r).run with
  | .error failure => return { failure := some failure }
  | .ok found => return { failure := ← deliver host r.output found.text, logs := found.logs }

def backendList : String :=
  let registry := Registry.withDefaults {}
  "Available backends:\n\n" ++ String.join (registry.names.map fun name =>
    "  " ++ name ++ String.ofList (List.replicate (8 - name.length) ' ') ++
      ((registry.get? name).elim "" Backend.description) ++ "\n")

/-- Carries out what a command line asks for once the configuration is loaded. -/
def dispatch (host : Host m) (settings : Settings) (i : Invocation) : Printing m Report := do
  if i.listBackends then
    print backendList
    return {}
  else
    match i.request with
    | some r => carryOut host settings r
    | none => return { failure := some .noCommand }

/-- Tells why a command line is not carried out. Help that was wanted is no failure. -/
def refuse (reason : CommandLine.Refusal) : Printing m Report := do
  if reason.isWanted then
    print (reason.message ++ "\n")
    return {}
  else return { failure := some (.refused reason) }

/-- Follows a command line, given the log filter of the environment. -/
def follow (host : Host m) (filter : Option String) (line : List String) : Printing m Report := do
  match CommandLine.readImplied line with
  | .error reason => refuse reason
  | .ok i =>
    match ← (loadSettings host i.config).run with
    | .error failure => return { failure := some failure }
    | .ok settings =>
      let (filter, complaints) :=
        LogFilter.choose filter (if i.verbose then "debug" else settings.level)
      let report ← dispatch host settings i
      return { report with complaints, logs := report.logs.filter filter.shows }

/-- Runs the program, given the log filter of the environment and the words of the command line. -/
def run (host : Host m) (filter : Option String) (line : List String) : m Outcome := do
  let (report, stdout) ← (follow host filter line).run ""
  return { report with stdout }

end DocTree.Program
