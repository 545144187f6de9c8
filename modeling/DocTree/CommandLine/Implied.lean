import DocTree.CommandLine.Reader

/-!
Command lines that name no command. When such a line is refused as it stands, but has an input
where a command is due, it is read as one that converts this input.
-/

namespace DocTree.CommandLine

/-- How many words a global switch and its value take at the front of a line, or 0 when there is no
global switch. -/
def globalWidth (word : String) : Nat :=
  if word = "--list-backends" || word = "--verbose" || word = "-v" ||
    "--config=".toList.isPrefixOf word.toList then 1
  else if word = "--config" then 2
  else 0

/-- Cuts the global switches off the front of words, with their values. A value that is due may be
any word, or may be missing at the end. -/
def splitGlobals : List String → List String × List String
  | [] => ([], [])
  | [word] => if globalWidth word = 0 then ([], [word]) else ([word], [])
  | word :: next :: rest =>
    match globalWidth word with
    | 0 => ([], word :: next :: rest)
    | 1 =>
      let (globals, rest) := splitGlobals (next :: rest)
      (word :: globals, rest)
    | _ =>
      let (globals, rest) := splitGlobals rest
      (word :: next :: globals, rest)

/-- Whether a word can be an input where a command is due. -/
def isInput (word : String) : Bool :=
  (word = "-" || word.toList.head? ≠ some '-') && !isCommandName word

/-- The line with the command to convert before its input, when it starts with the name of the
program, global switches and an input. -/
def implied? : List String → Option (List String)
  | [] => none
  | program :: words =>
    match splitGlobals words with
    | (globals, input :: rest) =>
      if isInput input then
        some (program :: globals ++ Command.convert.name :: input :: rest)
      else none
    | (_, []) => none

/-- Reads a line as it stands or, when that fails, with the command that it implies. -/
def readImplied (line : List String) : Except Refusal Invocation :=
  match read line with
  | .ok invocation => .ok invocation
  | .error refusal =>
    match implied? line with
    | some line => read line
    | none => .error refusal

end DocTree.CommandLine
