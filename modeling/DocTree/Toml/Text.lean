/-!
The text of a TOML document below the level of values: blanks, comments, line ends, strings and
keys. Every reader returns what it read together with the characters that remain.
-/

namespace DocTree.Toml

/-- How deep values may nest, and how many parts a key may have. -/
def nestingLimit : Nat := 79

def isBlank (c : Char) : Bool := c = ' ' || c = '\t'

/-- Characters that may stand in a comment: all but the controls, of which the tab is allowed. -/
def isPlain (c : Char) : Bool := c = '\t' || (32 ≤ c.toNat && c.toNat ≠ 127)

def skipBlanks (cs : List Char) : List Char := cs.dropWhile isBlank

def readNewline : List Char → Option (List Char)
  | '\n' :: rest => some rest
  | '\r' :: '\n' :: rest => some rest
  | _ => none

/-- Skips blanks and line ends. -/
def skipLines : List Char → List Char
  | '\n' :: rest | '\r' :: '\n' :: rest => skipLines rest
  | c :: rest => if isBlank c then skipLines rest else c :: rest
  | [] => []

/-- The end of a line after blanks and a comment; the text may end instead. -/
def readLineEnd (cs : List Char) : Option (List Char) :=
  let rest := match skipBlanks cs with
    | '#' :: comment => comment.dropWhile isPlain
    | rest => rest
  if rest.isEmpty then some [] else readNewline rest

def skipFree (inComment : Bool) : List Char → Option (List Char)
  | [] => some []
  | '\n' :: rest => skipFree false rest
  | '\r' :: rest =>
    match rest with
    | '\n' :: _ => skipFree false rest
    | _ => none
  | c :: rest =>
    if inComment then
      if isPlain c then skipFree true rest else none
    else if c = '#' then skipFree true rest
    else if isBlank c then skipFree false rest
    else some (c :: rest)

def hexDigit? (c : Char) : Option Nat :=
  if '0' ≤ c ∧ c ≤ '9' then some (c.toNat - 48)
  else if 'a' ≤ c ∧ c ≤ 'f' then some (c.toNat - 87)
  else if 'A' ≤ c ∧ c ≤ 'F' then some (c.toNat - 55)
  else none

/-- The character whose code point `size` hexadecimal digits give. -/
def readCodePoint (size : Nat) (cs : List Char) : Option Char := do
  let digits ← (cs.take size).mapM hexDigit?
  let code := digits.foldl (fun n d => n * 16 + d) 0
  if digits.length = size && code.isValidChar then some (Char.ofNat code) else none

/-- What the escape after a backslash stands for, and how many characters it takes. In a string of
several lines a backslash at the end of a line takes all blanks and line ends that follow. -/
def readEscape (lines : Bool) : List Char → Option (List Char × Nat)
  | 'b' :: _ => some (['\x08'], 1)
  | 't' :: _ => some (['\t'], 1)
  | 'n' :: _ => some (['\n'], 1)
  | 'f' :: _ => some (['\x0c'], 1)
  | 'r' :: _ => some (['\r'], 1)
  | '"' :: _ => some (['"'], 1)
  | '\\' :: _ => some (['\\'], 1)
  | 'u' :: rest => (readCodePoint 4 rest).map fun c => ([c], 5)
  | 'U' :: rest => (readCodePoint 8 rest).map fun c => ([c], 9)
  | cs =>
    if lines then do
      let next ← readNewline (skipBlanks cs)
      some ([], cs.length - (skipLines next).length)
    else none

/-- The kinds of strings: with or without escapes, on one line or on several. -/
structure Quoting where
  mark : Char
  escapes : Bool
  lines : Bool

/-- The end of a string of several lines after the first of its three marks: one or two marks more
belong to the string. -/
def readClosing (mark : Char) : List Char → Option (List Char × List Char)
  | a :: b :: rest =>
    if a = mark && b = mark then
      let extra := (rest.take 2).takeWhile (· = mark)
      some (extra, rest.drop extra.length)
    else none
  | _ => none

/-- Reads a string after its opening; the first `taken` characters belong to an escape. -/
def readQuoted (q : Quoting) (taken : Nat) : List Char → Option (List Char × List Char)
  | [] => none
  | c :: cs =>
    match taken with
    | more + 1 => readQuoted q more cs
    | 0 =>
      if c = q.mark && !q.lines then some ([], cs)
      else if c = q.mark && (readClosing q.mark cs).isSome then readClosing q.mark cs
      else if c = '\\' && q.escapes then do
        let (plain, size) ← readEscape q.lines cs
        let (text, rest) ← readQuoted q size cs
        some (plain ++ text, rest)
      else if c = '\r' && q.lines && cs.head? = some '\n' then readQuoted q 0 cs
      else if isPlain c || (c = '\n' && q.lines) then do
        let (text, rest) ← readQuoted q 0 cs
        some (c :: text, rest)
      else none

/-- Reads a string of several lines after its opening marks; a line end right behind them does not
belong to it. -/
def readLines (mark : Char) (escapes : Bool) (cs : List Char) : Option (List Char × List Char) :=
  readQuoted ⟨mark, escapes, true⟩ 0 ((readNewline cs).getD cs)

def readString : List Char → Option (String × List Char)
  | '"' :: '"' :: '"' :: rest => close (readLines '"' true rest)
  | '\'' :: '\'' :: '\'' :: rest => close (readLines '\'' false rest)
  | '"' :: rest => close (readQuoted ⟨'"', true, false⟩ 0 rest)
  | '\'' :: rest => close (readQuoted ⟨'\'', false, false⟩ 0 rest)
  | _ => none
where
  close (found : Option (List Char × List Char)) : Option (String × List Char) :=
    found.map fun (text, rest) => (String.ofList text, rest)

def isBare (c : Char) : Bool := c.isAlphanum || c = '_' || c = '-'

/-- A part of a key: bare, or a string on one line. -/
def readKeyPart (cs : List Char) : Option (String × List Char) :=
  match cs with
  | '"' :: rest =>
    (readQuoted ⟨'"', true, false⟩ 0 rest).map fun (text, rest) => (String.ofList text, rest)
  | '\'' :: rest =>
    (readQuoted ⟨'\'', false, false⟩ 0 rest).map fun (text, rest) => (String.ofList text, rest)
  | cs =>
    let part := cs.takeWhile isBare
    if part.isEmpty then none else some (String.ofList part, cs.dropWhile isBare)

/-- One or more parts of a key with points between them, and the blanks around them. -/
def readKeyParts : (steps : Nat) → List Char → Option (List String × String × List Char)
  | 0, _ => none
  | steps + 1, cs => do
    let (part, rest) ← readKeyPart (skipBlanks cs)
    match skipBlanks rest with
    | '.' :: rest =>
      let (path, last, rest) ← readKeyParts steps rest
      some (part :: path, last, rest)
    | rest => some ([], part, rest)

def readKey (steps : Nat) (cs : List Char) : Option (List String × String × List Char) := do
  let (path, last, rest) ← readKeyParts steps cs
  if path.length < nestingLimit then some (path, last, rest) else none

end DocTree.Toml
