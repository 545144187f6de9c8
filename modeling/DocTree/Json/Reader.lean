import DocTree.Json.Lexeme

/-!
Reading a JSON value. A value may hold arrays and objects nested `nestingLimit` deep. The loops
are bounded by a count of steps that the length of the text provides, since every two steps take
at least one character.
-/

namespace DocTree.Json

def nestingLimit : Nat := 127

def stepsFor (cs : List Char) : Nat := 2 * cs.length + 2

/-- How a container goes on: another element begins, or the container is closed. -/
inductive Next where
  | item (rest : List Char)
  | stop (rest : List Char)

/-- Looks for the next item of an array; every item but the first follows a comma. -/
def nextItem (first : Bool) (cs : List Char) : Except ReadError Next :=
  match skipBlanks cs with
  | [] => refuse .endInList
  | ']' :: rest => .ok (.stop rest)
  | c :: rest =>
    if first then .ok (.item (c :: rest))
    else if c = ',' then
      match skipBlanks rest with
      | [] => refuse .endInValue
      | ']' :: _ => refuse .trailingComma
      | next => .ok (.item next)
    else refuse .listCommaExpected

/-- Looks for the next key of an object and goes past its opening quote. -/
def nextKey (first : Bool) (cs : List Char) : Except ReadError Next :=
  match skipBlanks cs with
  | [] => refuse .endInObject
  | '\x7d' :: rest => .ok (.stop rest)
  | c :: rest =>
    if first then
      if c = '"' then .ok (.item rest) else refuse .keyNotString
    else if c = ',' then
      match skipBlanks rest with
      | [] => refuse .endInValue
      | '"' :: more => .ok (.item more)
      | '\x7d' :: _ => refuse .trailingComma
      | _ => refuse .keyNotString
    else refuse .objectCommaExpected

def readKey (cs : List Char) : Except ReadError (String × List Char) := do
  let (key, rest) ← readString 0 cs
  .ok (String.ofList key, rest)

def readColon (cs : List Char) : Except ReadError (List Char) :=
  match skipBlanks cs with
  | [] => refuse .endInObject
  | ':' :: rest => .ok rest
  | _ => refuse .colonExpected

mutual

/-- Reads a value with room for `room` more levels. A repeated key stays repeated. -/
def readValue (steps room : Nat) (cs : List Char) : Except ReadError (Json × List Char) :=
  match steps with
  | 0 => refuse .tooDeep
  | steps + 1 => do
    let (lexeme, rest) ← readLexeme cs
    match lexeme with
    | .null => .ok (.null, rest)
    | .bool b => .ok (.bool b, rest)
    | .num n => .ok (.num n, rest)
    | .str s => .ok (.str s, rest)
    | .openList =>
      match room with
      | 0 => refuse .tooDeep
      | room + 1 => do
        let (items, rest) ← readItems steps room true rest
        .ok (.arr items, rest)
    | .openObject =>
      match room with
      | 0 => refuse .tooDeep
      | room + 1 => do
        let (members, rest) ← readMembers steps room true rest
        .ok (.obj members, rest)

def readItems (steps room : Nat) (first : Bool) (cs : List Char) :
    Except ReadError (List Json × List Char) :=
  match steps with
  | 0 => refuse .tooDeep
  | steps + 1 => do
    match ← nextItem first cs with
    | .stop rest => .ok ([], rest)
    | .item rest =>
      let (v, rest) ← readValue steps room rest
      let (items, rest) ← readItems steps room false rest
      .ok (v :: items, rest)

def readMembers (steps room : Nat) (first : Bool) (cs : List Char) :
    Except ReadError (Members × List Char) :=
  match steps with
  | 0 => refuse .tooDeep
  | steps + 1 => do
    match ← nextKey first cs with
    | .stop rest => .ok ([], rest)
    | .item rest =>
      let (key, rest) ← readKey rest
      let rest ← readColon rest
      let (v, rest) ← readValue steps room rest
      let (members, rest) ← readMembers steps room false rest
      .ok ((key, v) :: members, rest)

end

/-- Nothing but blanks may follow the value of a text. -/
def readEnd (cs : List Char) : Except ReadError Unit :=
  if (skipBlanks cs).isEmpty then .ok () else refuse .trailingCharacters

/-- The value that a whole text spells, repeated keys included. -/
def readRaw (text : String) : Except ReadError Json := do
  let cs := text.toList
  let (v, rest) ← readValue (stepsFor cs) nestingLimit cs
  readEnd rest
  .ok v

/-- The value of a whole text. The last value of a repeated key counts. -/
def read (text : String) : Except ReadError Json := do
  .ok (← readRaw text).mergeRepeats

end DocTree.Json
