import DocTree.Source.Shape

/-!
Reading a document tree from its JSON text. A node is read field by field while the text is
scanned, so a value of a wrong kind is reported before the text behind it is looked at. Inline
content is read as a whole first; whatever is wrong with its shape has one message.
-/

namespace DocTree

open Json (ReadError refuse readLexeme)

namespace Location

def readField (f : LocationField) (l : Location) (cs : List Char) :
    Except ReadError (Location × List Char) :=
  match f with
  | .line => do
    let (line, rest) ← Json.readSize? cs
    .ok ({ l with line }, rest)
  | .file => do
    let (file, rest) ← Json.readText? cs
    .ok ({ l with file }, rest)

def read? (steps room : Nat) (cs : List Char) :
    Except ReadError (Option Location × List Char) := do
  match ← readLexeme cs with
  | (.null, rest) => .ok (none, rest)
  | (lexeme, rest) =>
    let (l, rest) ← shape.readFrom (fun _ => readField) {} steps room lexeme rest
    .ok (some l, rest)

end Location

/-- An object of arbitrary values, or `null`. -/
def readAttributes? (steps room : Nat) (cs : List Char) :
    Except ReadError (Option Json.Members × List Char) := do
  match ← readLexeme cs, room with
  | (.null, rest), _ => .ok (none, rest)
  | (.openObject, _), 0 => refuse .tooDeep
  | (.openObject, rest), room + 1 =>
    let (members, rest) ← Json.readMembers steps room true rest
    .ok (some (.ofList (Json.mergeRepeatsMembers members)), rest)
  | (found, _), _ => .error (.wrongKind found .map)

namespace RichText

def mismatch : ReadError := .noVariant "RichText"

def readFrom (steps room : Nat) (cs : List Char) : Except ReadError (RichText × List Char) := do
  let (v, rest) ← Json.readValue steps room cs
  match ofJson? v with
  | some t => .ok (t, rest)
  | none => .error mismatch

def read? (steps room : Nat) (cs : List Char) :
    Except ReadError (Option RichText × List Char) := do
  let (v, rest) ← Json.readValue steps room cs
  match Node.optionalRich? v with
  | some t => .ok (t, rest)
  | none => .error mismatch

def read (text : String) : Except ReadError RichText := do
  let cs := text.toList
  let (t, rest) ← readFrom (Json.stepsFor cs) Json.nestingLimit cs
  Json.readEnd rest
  .ok t

end RichText

namespace Node

/-- Reads the value of a field into a node, given the reader for a list of nodes. -/
def readField (readNodes? : List Char → Except ReadError (Option (List Node) × List Char))
    (steps room : Nat) (f : NodeField) (n : Node) (cs : List Char) :
    Except ReadError (Node × List Char) :=
  match f with
  | .nodeName => do
    let (s, rest) ← Json.readText cs
    .ok ({ n with props.nodeName := s }, rest)
  | .context => do
    let (s, rest) ← Json.readText cs
    .ok ({ n with props.context := s }, rest)
  | .title => do
    let (t, rest) ← RichText.read? steps room cs
    .ok ({ n with title := t }, rest)
  | .content => do
    let (t, rest) ← RichText.read? steps room cs
    .ok ({ n with content := t }, rest)
  | .text => do
    let (t, rest) ← RichText.read? steps room cs
    .ok ({ n with text := t }, rest)
  | .blocks => do
    let (ns, rest) ← readNodes? cs
    .ok ({ n with blocks := ns }, rest)
  | .items => do
    let (ns, rest) ← readNodes? cs
    .ok ({ n with items := ns }, rest)
  | .alt => do
    let (s, rest) ← Json.readText? cs
    .ok ({ n with props.alt := s }, rest)
  | .target => do
    let (s, rest) ← Json.readText? cs
    .ok ({ n with props.target := s }, rest)
  | .subType => do
    let (s, rest) ← Json.readText? cs
    .ok ({ n with props.subType := s }, rest)
  | .id => do
    let (s, rest) ← Json.readText? cs
    .ok ({ n with props.id := s }, rest)
  | .role => do
    let (s, rest) ← Json.readText? cs
    .ok ({ n with props.role := s }, rest)
  | .reftext => do
    let (s, rest) ← Json.readText? cs
    .ok ({ n with props.reftext := s }, rest)
  | .level => do
    let (i, rest) ← Json.readSigned? cs
    .ok ({ n with props.level := i }, rest)
  | .attributes => do
    let (a, rest) ← readAttributes? steps room cs
    .ok ({ n with props.attributes := a }, rest)
  | .location => do
    let (l, rest) ← Location.read? steps room cs
    .ok ({ n with props.location := l }, rest)

mutual

/-- Reads a node with room for `room` more levels of arrays and objects. -/
def readNode (steps room : Nat) (cs : List Char) : Except ReadError (Node × List Char) :=
  match steps with
  | 0 => refuse .tooDeep
  | steps + 1 => do
    let (lexeme, rest) ← readLexeme cs
    shape.readFrom (fun room => readField (fun cs => readNodes? steps room cs) steps room)
      default steps room lexeme rest
termination_by structural steps

def readNodes? (steps room : Nat) (cs : List Char) :
    Except ReadError (Option (List Node) × List Char) :=
  match steps with
  | 0 => refuse .tooDeep
  | steps + 1 => do
    match ← readLexeme cs, room with
    | (.null, rest), _ => .ok (none, rest)
    | (.openList, _), 0 => refuse .tooDeep
    | (.openList, rest), room + 1 =>
      let (ns, rest) ← readNodes steps room true rest
      .ok (some ns, rest)
    | (found, _), _ => .error (.wrongKind found .sequence)
termination_by structural steps

def readNodes (steps room : Nat) (first : Bool) (cs : List Char) :
    Except ReadError (List Node × List Char) :=
  match steps with
  | 0 => refuse .tooDeep
  | steps + 1 => do
    match ← Json.nextItem first cs with
    | .stop rest => .ok ([], rest)
    | .item rest =>
      let (n, rest) ← readNode steps room rest
      let (ns, rest) ← readNodes steps room false rest
      .ok (n :: ns, rest)
termination_by structural steps

end

def read (text : String) : Except ReadError Node := do
  let cs := text.toList
  let (n, rest) ← readNode (Json.stepsFor cs) Json.nestingLimit cs
  Json.readEnd rest
  .ok n

end Node

end DocTree
