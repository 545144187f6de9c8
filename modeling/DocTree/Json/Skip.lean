import DocTree.Json.Reader

/-!
Passing over the value of a member that nobody asks for. The value has to be well formed, but it
may nest to any depth, its numbers may have any size, and its escaped surrogates need no partner.
-/

namespace DocTree.Json

/-- How many characters the escape after a backslash takes. -/
def skipEscape : List Char → Except ReadError Nat
  | [] => refuse .endInString
  | 'u' :: rest => do
    let _ ← hexUnit rest
    .ok 5
  | c :: _ => if (simpleEscape? c).isSome then .ok 1 else refuse .badEscape

/-- Passes over a string after its opening quote; the first `taken` characters belong to an
escape. -/
def skipString (taken : Nat) : List Char → Except ReadError (List Char)
  | [] => refuse .endInString
  | c :: cs =>
    match taken with
    | more + 1 => skipString more cs
    | 0 =>
      if c = '"' then .ok cs
      else if c = '\\' then do skipString (← skipEscape cs) cs
      else if c.toNat < 32 then refuse .controlCharacter
      else skipString 0 cs

mutual

def skipValue (steps : Nat) (cs : List Char) : Except ReadError (List Char) :=
  match steps with
  | 0 => refuse .tooDeep
  | steps + 1 =>
    match skipBlanks cs with
    | [] => refuse .endInValue
    | 'n' :: rest => readWord ['u', 'l', 'l'] rest
    | 't' :: rest => readWord ['r', 'u', 'e'] rest
    | 'f' :: rest => readWord ['a', 'l', 's', 'e'] rest
    | '"' :: rest => skipString 0 rest
    | '[' :: rest =>
      match skipBlanks rest with
      | [] => refuse .endInList
      | ']' :: rest => .ok rest
      | item => skipItems steps item
    | '\x7b' :: rest =>
      match skipBlanks rest with
      | [] => refuse .endInObject
      | '\x7d' :: rest => .ok rest
      | member => skipMembers steps member
    | c :: rest =>
      if c = '-' || isDigit c then do
        let (_, rest) ← readNumeral .badNumber (c :: rest)
        .ok rest
      else refuse .valueExpected

/-- Passes over an item, all that follow it and the end of their array. -/
def skipItems (steps : Nat) (cs : List Char) : Except ReadError (List Char) :=
  match steps with
  | 0 => refuse .tooDeep
  | steps + 1 => do
    let rest ← skipValue steps cs
    match skipBlanks rest with
    | [] => refuse .endInList
    | ',' :: rest => skipItems steps rest
    | ']' :: rest => .ok rest
    | _ => refuse .listCommaExpected

/-- Passes over a member, all that follow it and the end of their object. -/
def skipMembers (steps : Nat) (cs : List Char) : Except ReadError (List Char) :=
  match steps with
  | 0 => refuse .tooDeep
  | steps + 1 =>
    match skipBlanks cs with
    | [] => refuse .endInObject
    | '"' :: rest => do
      let rest ← skipString 0 rest
      let rest ← readColon rest
      let rest ← skipValue steps rest
      match skipBlanks rest with
      | [] => refuse .endInObject
      | ',' :: rest => skipMembers steps rest
      | '\x7d' :: rest => .ok rest
      | _ => refuse .objectCommaExpected
    | _ => refuse .keyNotString

end

end DocTree.Json
