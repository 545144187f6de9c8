import DocTree.CommandLine.Invocation
import DocTree.CommandLine.Word

/-!
Reading a command line word by word. A value is only put in its place when the next switch or
value comes, so that of two faults the one that is met first while values are still underway is
told. The words of a command are read to their end before the program comes back to its own.
-/

namespace DocTree.CommandLine

structure Given where
  flags : List Flag := []
  settings : List (Setting × String) := []
  input : Option String := none
  deriving DecidableEq

def Given.isEmpty (g : Given) : Bool := g.flags.isEmpty && g.settings.isEmpty && g.input.isNone

/-- A value that is not in its place yet. -/
inductive Underway where
  | nothing
  | awaited (s : Setting)
  | setting (s : Setting) (value : String)
  | input (text : String)
  deriving DecidableEq

structure State where
  given : Given := {}
  underway : Underway := .nothing
  escaped : Bool := false
  deriving DecidableEq

/-- What a word leads to: reading goes on, a command starts, or the words that follow are the
commands to be explained. -/
inductive Step where
  | next (state : State)
  | enter (c : Command)
  | explain
  deriving DecidableEq

namespace State

def setSetting (state : State) (s : Setting) (value : String) : Except Refusal State :=
  if (state.given.settings.lookup s).isSome then .error .repeated
  else
    .ok { state with
      given := { state.given with settings := (s, value) :: state.given.settings }
      underway := .nothing }

def settle (state : State) : Except Refusal State :=
  match state.underway with
  | .nothing => .ok state
  | .awaited _ => .error .missingValue
  | .setting s value => state.setSetting s value
  | .input text =>
    .ok { state with
      given := { state.given with input := some text }
      underway := .nothing }

def setFlag (state : State) (f : Flag) : Except Refusal State :=
  if state.given.flags.contains f then .error .repeated
  else .ok { state with given := { state.given with flags := f :: state.given.flags } }

def await (state : State) (s : Setting) : State := { state with underway := .awaited s }

/-- A long switch, with the value that is attached to it. -/
def readLong (scope : Scope) (state : State) (name : String) (value : Option String) :
    Except Refusal State :=
  match scope.long? name, value with
  | none, _ => .error .unknownWord
  | some (.setting s), none => do return (← state.settle).await s
  | some (.setting s), some value => do (← state.settle).setSetting s value
  | some _, some _ => .error .unwantedValue
  | some (.flag f), none => do (← state.settle).setFlag f
  | some .help, none => do
    let _ ← state.settle
    .error .helpWanted
  | some .version, none => do
    let _ ← state.settle
    .error .versionWanted

/-- The value that is attached to a letter, without the equals sign that may precede it. -/
def attached : List Char → String
  | '=' :: cs => String.ofList cs
  | cs => String.ofList cs

/-- Letters behind one dash. A letter with a value has all the letters after it as its value. -/
def readLetters (scope : Scope) (state : State) : List Char → Except Refusal State
  | [] => .ok state
  | c :: cs =>
    match scope.letter? c with
    | none => .error .unknownWord
    | some (.setting s) => do
      let state ← state.settle
      if cs.isEmpty then .ok (state.await s) else state.setSetting s (attached cs)
    | some (.flag f) => do readLetters scope (← (← state.settle).setFlag f) cs
    | some .help => do
      let _ ← state.settle
      .error .helpWanted
    | some .version => do
      let _ ← state.settle
      .error .versionWanted

/-- A word that is no switch and no value of one. Only a command takes one, as its input. -/
def readPlain (scope : Scope) (state : State) (text : String) : Except Refusal State :=
  match scope with
  | .program =>
    .error (if state.escaped && isCommandName text then .unknownWord else .unknownCommand)
  | .command _ =>
    match state.given.input, state.underway with
    | some _, _ | _, .input _ => .error .unknownWord
    | none, _ => do return { ← state.settle with underway := .input text }

/-- A word that neither starts a command nor follows the escape word. -/
def readWord (scope : Scope) (state : State) (text : String) : Except Refusal State :=
  match Word.read text with
  | .escape => .ok { state with escaped := true }
  | .long name value => state.readLong scope name value
  | .letters c cs => state.readLetters scope (c :: cs)
  | .plain text =>
    match state.underway with
    | .awaited s => .ok { state with underway := .setting s text }
    | _ => state.readPlain scope text

def isAwaiting (state : State) : Bool :=
  match state.underway with
  | .awaited _ => true
  | _ => false

def step (scope : Scope) (state : State) (text : String) : Except Refusal Step :=
  if state.escaped then do return .next (← state.readPlain scope text)
  else if scope = .program && !state.isAwaiting && isCommandName text then
    .ok (match Command.ofName? text with
      | some c => .enter c
      | none => .explain)
  else do return .next (← state.readWord scope text)

end State

/-- Whether commands can be explained: at most one, as no command has commands of its own. -/
def explain (words : List String) : Refusal :=
  match words with
  | [] => .helpWanted
  | [word] => if isCommandName word then .helpWanted else .unknownCommand
  | _ => .unknownCommand

/-- Reads words up to the end or to a command, and gives this with the words after it. -/
def scan (scope : Scope) (state : State) :
    List String → Except Refusal (State × Option (Command × List String))
  | [] => .ok (state, none)
  | word :: rest => do
    match ← state.step scope word with
    | .next state => scan scope state rest
    | .enter c => .ok (state, some (c, rest))
    | .explain => .error (explain rest)

/-- What is given to a command, of which the input has to be. -/
def readCommand (c : Command) (words : List String) : Except Refusal (Given × String) := do
  let (state, _) ← scan (.command c) {} words
  let state ← state.settle
  match state.given.input with
  | some input => return (state.given, input)
  | none => .error .missingInput

/-- What is given before a command, if there is one, and what is given to it. -/
def combine (outer : Given) (inner : Option (Command × Given × String)) : Invocation :=
  let given : Given := inner.elim {} fun (_, given, _) => given
  { verbose := outer.flags.contains .verbose || given.flags.contains .verbose
    listBackends := outer.flags.contains .listBackends || given.flags.contains .listBackends
    config := given.settings.lookup .config <|> outer.settings.lookup .config
    request := inner.map fun (command, given, input) =>
      { command, input
        backend := given.settings.lookup .backend
        output := given.settings.lookup .output
        flat := given.flags.contains .flat
        noAsciiDocData := given.flags.contains .noAsciiDocData
        compact := given.flags.contains .compact } }

def readWords (words : List String) : Except Refusal Invocation := do
  let (state, called) ← scan .program {} words
  match called with
  | some (c, rest) =>
    let (given, input) ← readCommand c rest
    let state ← state.settle
    return combine state.given (some (c, given, input))
  | none =>
    let state ← state.settle
    if state.given.isEmpty then .error .nothingGiven
    else return combine state.given none

/-- Reads a command line, of which the first word is the name of the program. -/
def read (line : List String) : Except Refusal Invocation := readWords line.tail

end DocTree.CommandLine
