/-!
The words of a command line, by their form alone.
-/

namespace DocTree.CommandLine

inductive Word where
  /-- Two dashes: whatever follows is no switch. -/
  | escape
  /-- A long switch, with the text after an equals sign. -/
  | long (name : String) (value : Option String)
  /-- One dash and the letters behind it, of which there is at least one. -/
  | letters (first : Char) (rest : List Char)
  | plain (text : String)
  deriving DecidableEq

namespace Word

def readLong (cs : List Char) : Word :=
  .long (String.ofList (cs.takeWhile (· ≠ '=')))
    (match cs.dropWhile (· ≠ '=') with
      | [] => none
      | _ :: value => some (String.ofList value))

def read (text : String) : Word :=
  match text.toList with
  | ['-', '-'] => .escape
  | '-' :: '-' :: cs => readLong cs
  | '-' :: c :: cs => .letters c cs
  | _ => .plain text

end Word

end DocTree.CommandLine
