import DocTree.Json.ReadError

/-!
Reading the beginning of a JSON value from a list of characters. Every reader returns what it
read together with the characters that remain.
-/

namespace DocTree.Json

def refuse {α : Type} (defect : Defect) : Except ReadError α := .error (.malformed defect)

/-- The characters that may stand between the parts of a text. -/
def isBlank (c : Char) : Bool := c = ' ' || c = '\t' || c = '\n' || c = '\r'

def skipBlanks (cs : List Char) : List Char := cs.dropWhile isBlank

/-- The rest of `null`, `true` or `false`. -/
def readWord : List Char → List Char → Except ReadError (List Char)
  | [], cs => .ok cs
  | _ :: _, [] => refuse .endInValue
  | w :: word, c :: cs => if c = w then readWord word cs else refuse .wordExpected

def hexDigit? (c : Char) : Option Nat :=
  if '0' ≤ c ∧ c ≤ '9' then some (c.toNat - 48)
  else if 'a' ≤ c ∧ c ≤ 'f' then some (c.toNat - 87)
  else if 'A' ≤ c ∧ c ≤ 'F' then some (c.toNat - 55)
  else none

/-- The number that four hexadecimal digits spell. A text that ends before four bytes of it ends
inside its string. -/
def hexUnit (cs : List Char) : Except ReadError Nat :=
  match cs with
  | a :: b :: c :: d :: _ =>
    match hexDigit? a, hexDigit? b, hexDigit? c, hexDigit? d with
    | some a, some b, some c, some d => .ok (((a * 16 + b) * 16 + c) * 16 + d)
    | _, _, _, _ => refuse .badEscape
  | short =>
    if (String.ofList short).utf8ByteSize < 4 then refuse .endInString else refuse .badEscape

def isHighSurrogate (n : Nat) : Bool := 0xD800 ≤ n && n ≤ 0xDBFF

def isLowSurrogate (n : Nat) : Bool := 0xDC00 ≤ n && n ≤ 0xDFFF

def simpleEscape? : Char → Option Char
  | '"' => some '"'
  | '\\' => some '\\'
  | '/' => some '/'
  | 'b' => some '\x08'
  | 'f' => some '\x0c'
  | 'n' => some '\n'
  | 'r' => some '\r'
  | 't' => some '\t'
  | _ => none

/-- The character that the escape after a backslash stands for, and how many characters the
escape takes. Two escaped halves of a surrogate pair are one character. -/
def readEscape : List Char → Except ReadError (Char × Nat)
  | [] => refuse .endInString
  | 'u' :: rest => do
    let unit ← hexUnit rest
    if isLowSurrogate unit then refuse .loneSurrogate
    else if !isHighSurrogate unit then .ok (Char.ofNat unit, 5)
    else
      match rest.drop 4 with
      | [] | ['\\'] => refuse .endInString
      | '\\' :: 'u' :: more => do
        let low ← hexUnit more
        if isLowSurrogate low then
          .ok (Char.ofNat (0x10000 + (unit - 0xD800) * 1024 + (low - 0xDC00)), 11)
        else refuse .loneSurrogate
      | _ => refuse .unpairedSurrogate
  | c :: _ =>
    match simpleEscape? c with
    | some plain => .ok (plain, 1)
    | none => refuse .badEscape

/-- Reads a string after its opening quote; the first `taken` characters belong to an escape that
has been read. -/
def readString (taken : Nat) : List Char → Except ReadError (List Char × List Char)
  | [] => refuse .endInString
  | c :: cs =>
    match taken with
    | more + 1 => readString more cs
    | 0 =>
      if c = '"' then .ok ([], cs)
      else if c = '\\' then do
        let (plain, size) ← readEscape cs
        let (text, rest) ← readString size cs
        .ok (plain :: text, rest)
      else if c.toNat < 32 then refuse .controlCharacter
      else do
        let (text, rest) ← readString 0 cs
        .ok (c :: text, rest)

def isDigit (c : Char) : Bool := '0' ≤ c && c ≤ '9'

def readDigits (cs : List Char) : List Nat × List Char :=
  ((cs.takeWhile isDigit).map (·.toNat - 48), cs.dropWhile isDigit)

/-- Digits, at least one. A text that ends instead has the defect `atEnd`. -/
def readSomeDigits (atEnd : Defect) (cs : List Char) : Except ReadError (List Nat × List Char) :=
  match readDigits cs with
  | ([], []) => refuse atEnd
  | ([], _ :: _) => refuse .badNumber
  | found => .ok found

/-- The digits before the point. A zero stands alone. -/
def readWhole (atEnd : Defect) (cs : List Char) : Except ReadError (List Nat × List Char) := do
  match ← readSomeDigits atEnd cs with
  | (0 :: _ :: _, _) => refuse .badNumber
  | found => .ok found

def readFraction (atEnd : Defect) : List Char → Except ReadError (List Nat × List Char)
  | '.' :: cs => readSomeDigits atEnd cs
  | cs => .ok ([], cs)

def decimalValue (digits : List Nat) : Nat := digits.foldl (fun n d => n * 10 + d) 0

def readExponent (atEnd : Defect) (cs : List Char) : Except ReadError (Option Int × List Char) :=
  match cs with
  | 'e' :: cs | 'E' :: cs =>
    match cs with
    | '-' :: cs => do
      let (digits, rest) ← readSomeDigits atEnd cs
      .ok (some (-decimalValue digits), rest)
    | '+' :: cs | cs => do
      let (digits, rest) ← readSomeDigits atEnd cs
      .ok (some (decimalValue digits), rest)
  | cs => .ok (none, cs)

/-- Reads the spelling of a number that begins with a digit or a minus sign. -/
def readNumeral (atEnd : Defect) (cs : List Char) : Except ReadError (Numeral × List Char) := do
  let (negative, cs) := match cs with
    | '-' :: cs => (true, cs)
    | cs => (false, cs)
  let (whole, cs) ← readWhole atEnd cs
  let (fraction, cs) ← readFraction atEnd cs
  let (exponent, cs) ← readExponent atEnd cs
  .ok (⟨negative, whole, fraction, exponent⟩, cs)

def readNumber (cs : List Char) : Except ReadError (Number × List Char) := do
  let (numeral, rest) ← readNumeral .endInValue cs
  match numeral.value? with
  | some n => .ok (n, rest)
  | none => refuse .numberOutOfRange

/-- Reads the beginning of a value, after any blanks. -/
def readLexeme (cs : List Char) : Except ReadError (Lexeme × List Char) :=
  match skipBlanks cs with
  | [] => refuse .endInValue
  | 'n' :: rest => do .ok (.null, ← readWord ['u', 'l', 'l'] rest)
  | 't' :: rest => do .ok (.bool true, ← readWord ['r', 'u', 'e'] rest)
  | 'f' :: rest => do .ok (.bool false, ← readWord ['a', 'l', 's', 'e'] rest)
  | '"' :: rest => do
    let (text, rest) ← readString 0 rest
    .ok (.str (String.ofList text), rest)
  | '[' :: rest => .ok (.openList, rest)
  | '\x7b' :: rest => .ok (.openObject, rest)
  | c :: rest =>
    if c = '-' || isDigit c then do
      let (n, rest) ← readNumber (c :: rest)
      .ok (.num n, rest)
    else refuse .valueExpected

end DocTree.Json
