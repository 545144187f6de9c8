import DocTree.Json.Number

/-!
The two written forms of a JSON value: on one line without blanks, and indented by two blanks for
each level. Both keep the order of members, and both write text beyond ASCII as it is.
-/

namespace DocTree.Json

/-- The four hexadecimal digits of a control character. -/
def controlDigits (code : Nat) : List Char :=
  ['0', '0', Nat.digitChar (code / 16), Nat.digitChar (code % 16)]

/-- A character inside a string. Only quotes, backslashes and control characters are escaped. -/
def escapeChar (c : Char) : List Char :=
  if c = '"' then ['\\', '"']
  else if c = '\\' then ['\\', '\\']
  else if c = '\x08' then ['\\', 'b']
  else if c = '\t' then ['\\', 't']
  else if c = '\n' then ['\\', 'n']
  else if c = '\x0c' then ['\\', 'f']
  else if c = '\r' then ['\\', 'r']
  else if c.toNat < 32 then '\\' :: 'u' :: controlDigits c.toNat
  else [c]

def quoted (s : String) : List Char :=
  '"' :: s.toList.flatMap escapeChar ++ ['"']

def scalarChars : Json → List Char
  | .null => "null".toList
  | .bool true => "true".toList
  | .bool false => "false".toList
  | .num n => n.text.toList
  | .str s => quoted s
  | .arr _ | .obj _ => []

mutual

def compactChars : Json → List Char
  | .arr [] => ['[', ']']
  | .arr (v :: rest) => '[' :: compactChars v ++ compactItems rest
  | .obj [] => ['\x7b', '\x7d']
  | .obj ((k, v) :: rest) => '\x7b' :: quoted k ++ ':' :: compactChars v ++ compactMembers rest
  | .null => scalarChars .null
  | .bool b => scalarChars (.bool b)
  | .num n => scalarChars (.num n)
  | .str s => scalarChars (.str s)

def compactItems : List Json → List Char
  | [] => [']']
  | v :: rest => ',' :: compactChars v ++ compactItems rest

def compactMembers : Members → List Char
  | [] => ['\x7d']
  | (k, v) :: rest => ',' :: quoted k ++ ':' :: compactChars v ++ compactMembers rest

end

/-- The start of a line inside `level` containers. -/
def newline (level : Nat) : List Char :=
  '\n' :: List.replicate (2 * level) ' '

mutual

/-- The indented form of a value inside `level` containers. -/
def prettyChars (level : Nat) : Json → List Char
  | .arr [] => ['[', ']']
  | .arr (v :: rest) =>
    '[' :: newline (level + 1) ++ prettyChars (level + 1) v ++ prettyItems level rest
  | .obj [] => ['\x7b', '\x7d']
  | .obj ((k, v) :: rest) =>
    '\x7b' :: newline (level + 1) ++ quoted k ++ ':' :: ' ' :: prettyChars (level + 1) v ++
      prettyMembers level rest
  | .null => scalarChars .null
  | .bool b => scalarChars (.bool b)
  | .num n => scalarChars (.num n)
  | .str s => scalarChars (.str s)

/-- The items after the first one and the end of their array, which is inside `level`
containers. -/
def prettyItems (level : Nat) : List Json → List Char
  | [] => newline level ++ [']']
  | v :: rest =>
    ',' :: newline (level + 1) ++ prettyChars (level + 1) v ++ prettyItems level rest

/-- The members after the first one and the end of their object, which is inside `level`
containers. -/
def prettyMembers (level : Nat) : Members → List Char
  | [] => newline level ++ ['\x7d']
  | (k, v) :: rest =>
    ',' :: newline (level + 1) ++ quoted k ++ ':' :: ' ' :: prettyChars (level + 1) v ++
      prettyMembers level rest

end

def compact (v : Json) : String := String.ofList (compactChars v)

def pretty (v : Json) : String := String.ofList (prettyChars 0 v)

end DocTree.Json
