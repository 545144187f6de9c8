import DocTree.Toml.Scalar

/-!
Reading a TOML document. A text is refused as a whole when any part of it is malformed; there is
no further account of what is wrong with it.
-/

namespace DocTree.Toml

mutual

def readValue (steps room : Nat) (cs : List Char) : Option (Toml × List Char) :=
  match steps with
  | 0 => none
  | steps + 1 =>
    match cs with
    | '"' :: _ | '\'' :: _ => (readString cs).map fun (s, rest) => (.str s, rest)
    | '[' :: rest =>
      match room with
      | 0 => none
      | room + 1 => (readItems steps room rest).map fun (items, rest) => (.list items, rest)
    | '\x7b' :: rest =>
      match room with
      | 0 => none
      | room + 1 =>
        match skipBlanks rest with
        | '\x7d' :: rest => some (.table .inline [], rest)
        | rest =>
          (readMembers steps room [] rest).map fun (entries, rest) =>
            (.table .inline entries, rest)
    | 't' :: 'r' :: 'u' :: 'e' :: rest => some (.bool true, rest)
    | 'f' :: 'a' :: 'l' :: 's' :: 'e' :: rest => some (.bool false, rest)
    | cs => if isDatetime cs then readDatetime cs else readNumber cs

def readItems (steps room : Nat) (cs : List Char) : Option (List Toml × List Char) :=
  match steps with
  | 0 => none
  | steps + 1 => do
    match ← skipFree false cs with
    | ']' :: rest => some ([], rest)
    | rest =>
      let (v, rest) ← readValue steps room rest
      match ← skipFree false rest with
      | ',' :: rest =>
        let (items, rest) ← readItems steps room rest
        some (v :: items, rest)
      | ']' :: rest => some ([v], rest)
      | _ => none

/-- Reads the members of an inline table, of which there is at least one, and its end. -/
def readMembers (steps room : Nat) (entries : Entries) (cs : List Char) :
    Option (Entries × List Char) :=
  match steps with
  | 0 => none
  | steps + 1 => do
    let (path, key, rest) ← readKey steps cs
    let rest ← expect '=' rest
    let (v, rest) ← readValue steps room (skipBlanks rest)
    let entries ← addValue path key v entries
    match skipBlanks rest with
    | ',' :: rest => readMembers steps room entries rest
    | '\x7d' :: rest => some (entries, rest)
    | _ => none

end

/-- Reads a header after its first bracket: opens a table and gives the path to it. -/
def readHeader (steps : Nat) (entries : Entries) (cs : List Char) :
    Option (List String × Entries × List Char) :=
  match cs with
  | '[' :: cs => do
    let (path, key, rest) ← readKey steps cs
    let rest ← expect ']' (← expect ']' rest)
    let entries ← openElement path key entries
    some (path ++ [key], entries, ← readLineEnd rest)
  | cs => do
    let (path, key, rest) ← readKey steps cs
    let rest ← expect ']' rest
    let entries ← openTable path key entries
    some (path ++ [key], entries, ← readLineEnd rest)

/-- Reads the lines of a document, of which those before the last header read belong to `entries`
and the next ones to the table that `header` names. -/
def readDocument (steps : Nat) (header : List String) (entries : Entries) (cs : List Char) :
    Option Entries :=
  match steps with
  | 0 => none
  | steps + 1 =>
    match skipBlanks cs with
    | [] => some entries
    | '[' :: rest => do
      let (header, entries, rest) ← readHeader steps entries rest
      readDocument steps header entries rest
    | c :: rest =>
      if c = '#' || c = '\n' || c = '\r' then do
        readDocument steps header entries (← readLineEnd (c :: rest))
      else do
        let (path, key, rest) ← readKey steps (c :: rest)
        let rest ← expect '=' rest
        let (v, rest) ← readValue steps nestingLimit (skipBlanks rest)
        let entries ← addUnder header path key v entries
        readDocument steps header entries (← readLineEnd rest)

/-- The entries of a whole document. A byte order mark may stand before it. -/
def read (text : String) : Option Entries :=
  let cs := match text.toList with
    | '\uFEFF' :: rest => rest
    | cs => cs
  readDocument (2 * cs.length + 2) [] [] cs

end DocTree.Toml
