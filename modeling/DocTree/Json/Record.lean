import DocTree.Json.Skip

/-!
Reading a record with named fields. A record is written as an object of its fields in any order,
in which members with other keys are passed over, or as an array of its fields in their declared
order, in which fields may be missing at the end.
-/

namespace DocTree.Json

/-- The fields of a kind of record, in their declared order. -/
structure RecordShape (F : Type) where
  name : String
  fields : List F
  key : F → String
  required : F → Bool

namespace RecordShape

variable {F : Type} [DecidableEq F] {σ : Type}

def field? (shape : RecordShape F) (key : String) : Option F :=
  shape.fields.find? fun f => shape.key f = key

/-- The first required field that is not among those given. -/
def missing? (shape : RecordShape F) (given : List F) : Option F :=
  shape.fields.find? fun f => shape.required f && !given.contains f

/-- Reads the members of an object into a record, those of the fields in `seen` being read
already. -/
def readMembers (shape : RecordShape F)
    (readField : F → σ → List Char → Except ReadError (σ × List Char))
    (steps : Nat) (first : Bool) (seen : List F) (record : σ) (cs : List Char) :
    Except ReadError (σ × List Char) :=
  match steps with
  | 0 => refuse .tooDeep
  | steps + 1 => do
    match ← nextKey first cs with
    | .stop rest =>
      match shape.missing? seen with
      | some f => .error (.missingField (shape.key f))
      | none => .ok (record, rest)
    | .item rest =>
      let (key, rest) ← readKey rest
      match shape.field? key with
      | none =>
        let rest ← readColon rest
        let rest ← skipValue steps rest
        readMembers shape readField steps false seen record rest
      | some f =>
        if f ∈ seen then .error (.repeatedField key)
        else
          let rest ← readColon rest
          let (record, rest) ← readField f record rest
          readMembers shape readField steps false (f :: seen) record rest

/-- The end of an array all of whose fields have been read. -/
def readClosed (cs : List Char) : Except ReadError (List Char) :=
  match skipBlanks cs with
  | [] => refuse .endInList
  | ']' :: rest => .ok rest
  | ',' :: rest =>
    match skipBlanks rest with
    | ']' :: _ => refuse .trailingComma
    | _ => refuse .trailingCharacters
  | _ => refuse .trailingCharacters

/-- Reads the items of an array as the remaining fields of a record. -/
def readItems (shape : RecordShape F)
    (readField : F → σ → List Char → Except ReadError (σ × List Char))
    (remaining : List F) (first : Bool) (record : σ) (cs : List Char) :
    Except ReadError (σ × List Char) :=
  match remaining with
  | [] => do .ok (record, ← readClosed cs)
  | f :: fields => do
    match ← nextItem first cs with
    | .stop rest =>
      if (f :: fields).any shape.required then
        .error (.tooShort (shape.fields.length - (f :: fields).length) shape.name
          shape.fields.length)
      else .ok (record, rest)
    | .item rest =>
      let (record, rest) ← readField f record rest
      readItems shape readField fields false record rest

def readFrom (shape : RecordShape F)
    (readField : Nat → F → σ → List Char → Except ReadError (σ × List Char))
    (initial : σ) (steps room : Nat) (lexeme : Lexeme) (rest : List Char) :
    Except ReadError (σ × List Char) :=
  match lexeme, room with
  | .openObject, room + 1 => shape.readMembers (readField room) steps true [] initial rest
  | .openList, room + 1 => shape.readItems (readField room) shape.fields true initial rest
  | .openObject, 0 | .openList, 0 => refuse .tooDeep
  | found, _ => .error (.wrongKind found (.record shape.name))

/-- The record that the members of an object make up, those of the fields in `seen` being there
already. A repeated field makes none. -/
def ofMembers? (shape : RecordShape F) (setField? : F → σ → Json → Option σ)
    (seen : List F) (record : σ) : Members → Option σ
  | [] => if (shape.missing? seen).isNone then some record else none
  | (key, v) :: rest =>
    match shape.field? key with
    | none => ofMembers? shape setField? seen record rest
    | some f =>
      if f ∈ seen then none
      else do ofMembers? shape setField? (f :: seen) (← setField? f record v) rest

/-- The record that the items of an array make up, in the order of the remaining fields. -/
def ofItems? (shape : RecordShape F) (setField? : F → σ → Json → Option σ) :
    List F → σ → List Json → Option σ
  | remaining, record, [] => if remaining.any shape.required then none else some record
  | [], _, _ :: _ => none
  | f :: fields, record, v :: rest => do
    ofItems? shape setField? fields (← setField? f record v) rest

/-- The record that a value has the declared shape of. -/
def ofJson? (shape : RecordShape F) (setField? : F → σ → Json → Option σ) (initial : σ) :
    Json → Option σ
  | .obj members => shape.ofMembers? setField? [] initial members
  | .arr items => shape.ofItems? setField? shape.fields initial items
  | _ => none

end RecordShape

def readText (cs : List Char) : Except ReadError (String × List Char) := do
  match ← readLexeme cs with
  | (.str s, rest) => .ok (s, rest)
  | (found, _) => .error (.wrongKind found .string)

def readText? (cs : List Char) : Except ReadError (Option String × List Char) := do
  match ← readLexeme cs with
  | (.null, rest) => .ok (none, rest)
  | (.str s, rest) => .ok (some s, rest)
  | (found, _) => .error (.wrongKind found .string)

def readBool (cs : List Char) : Except ReadError (Bool × List Char) := do
  match ← readLexeme cs with
  | (.bool b, rest) => .ok (b, rest)
  | (found, _) => .error (.wrongKind found .boolean)

def Integer.toInt64? (n : Integer) : Option Int64 :=
  if n.val < 9223372036854775808 then some (Int64.ofInt n.val) else none

def Integer.toUInt64? (n : Integer) : Option UInt64 :=
  if 0 ≤ n.val then some (UInt64.ofNat n.val.toNat) else none

def readSigned? (cs : List Char) : Except ReadError (Option Int64 × List Char) := do
  match ← readLexeme cs with
  | (.null, rest) => .ok (none, rest)
  | (.num (.int n), rest) =>
    match n.toInt64? with
    | some i => .ok (some i, rest)
    | none => .error (.wrongRange n .signed)
  | (found, _) => .error (.wrongKind found .signed)

def readSize? (cs : List Char) : Except ReadError (Option UInt64 × List Char) := do
  match ← readLexeme cs with
  | (.null, rest) => .ok (none, rest)
  | (.num (.int n), rest) =>
    match n.toUInt64? with
    | some i => .ok (some i, rest)
    | none => .error (.wrongRange n .size)
  | (found, _) => .error (.wrongKind found .size)

end DocTree.Json
