import DocTree.Source.Node
import DocTree.Json.Record

/-!
The declared shape of a document tree as a JSON value: the fields of a node in their order, and
the tree that a value of that shape stands for. Inline content is a string or an array of strings
and nodes, and a node within it may take either form of a record, like any other node.
-/

namespace DocTree

open Json (RecordShape)

inductive LocationField where
  | line
  | file
  deriving DecidableEq

namespace Location

def shape : RecordShape LocationField where
  name := "SourceLocation"
  fields := [.line, .file]
  key
    | .line => "line"
    | .file => "file"
  required _ := false

def setField? : LocationField → Location → Json → Option Location
  | .line, l, .null => some { l with line := none }
  | .line, l, .num (.int n) => n.toUInt64?.map fun line => { l with line := some line }
  | .file, l, .null => some { l with file := none }
  | .file, l, .str s => some { l with file := some s }
  | _, _, _ => none

def ofJson? (v : Json) : Option Location := shape.ofJson? setField? {} v

end Location

inductive NodeField where
  | nodeName
  | context
  | title
  | content
  | text
  | blocks
  | items
  | alt
  | target
  | subType
  | id
  | role
  | reftext
  | level
  | attributes
  | location
  deriving DecidableEq

namespace NodeField

def key : NodeField → String
  | .nodeName => "nodeName"
  | .context => "context"
  | .title => "title"
  | .content => "content"
  | .text => "text"
  | .blocks => "blocks"
  | .items => "items"
  | .alt => "alt"
  | .target => "target"
  | .subType => "type"
  | .id => "id"
  | .role => "role"
  | .reftext => "reftext"
  | .level => "level"
  | .attributes => "attributes"
  | .location => "sourceLocation"

end NodeField

/-- What a value is for a field that may be missing: `null` is a missing value. -/
def optional? {α : Type} (decode : Json → Option α) : Json → Option (Option α)
  | .null => some none
  | v => (decode v).map some

def text? : Json → Option String
  | .str s => some s
  | _ => none

def signed? : Json → Option Int64
  | .num (.int n) => n.toInt64?
  | _ => none

/-- An object of arbitrary values. The last value of a repeated key counts. -/
def attributes? : Json → Option Json.Members
  | .obj members => some (.ofList (Json.mergeRepeatsMembers members))
  | _ => none

namespace Node

def shape : RecordShape NodeField where
  name := "AstNode"
  fields :=
    [.nodeName, .context, .title, .content, .text, .blocks, .items, .alt, .target, .subType,
      .id, .role, .reftext, .level, .attributes, .location]
  key := NodeField.key
  required
    | .nodeName => true
    | _ => false

/-- Sets a field of a node from a value. What the value is as inline content and as a list of
nodes is asked for only where the field holds one. -/
def setField? (f : NodeField) (n : Node) (v : Json) (rich : Unit → Option (Option RichText))
    (nodes : Unit → Option (Option (List Node))) : Option Node :=
  match f with
  | .nodeName => (text? v).map fun s => { n with props.nodeName := s }
  | .context => (text? v).map fun s => { n with props.context := s }
  | .title => (rich ()).map fun t => { n with title := t }
  | .content => (rich ()).map fun t => { n with content := t }
  | .text => (rich ()).map fun t => { n with text := t }
  | .blocks => (nodes ()).map fun ns => { n with blocks := ns }
  | .items => (nodes ()).map fun ns => { n with items := ns }
  | .alt => (optional? text? v).map fun s => { n with props.alt := s }
  | .target => (optional? text? v).map fun s => { n with props.target := s }
  | .subType => (optional? text? v).map fun s => { n with props.subType := s }
  | .id => (optional? text? v).map fun s => { n with props.id := s }
  | .role => (optional? text? v).map fun s => { n with props.role := s }
  | .reftext => (optional? text? v).map fun s => { n with props.reftext := s }
  | .level => (optional? signed? v).map fun i => { n with props.level := i }
  | .attributes => (optional? attributes? v).map fun a => { n with props.attributes := a }
  | .location => (optional? Location.ofJson? v).map fun l => { n with props.location := l }

mutual

def ofJson? : Json → Option Node
  | .obj members => ofMembers? [] default members
  | .arr items => ofItems? shape.fields default items
  | _ => none

/-- The node that the members of an object make up, those of the fields in `seen` being there
already. -/
def ofMembers? (seen : List NodeField) (n : Node) : Json.Members → Option Node
  | [] => if (shape.missing? seen).isNone then some n else none
  | (key, v) :: rest =>
    match shape.field? key with
    | none => ofMembers? seen n rest
    | some f =>
      if f ∈ seen then none
      else do
        let n ← setField? f n v (fun _ => optionalRich? v) (fun _ => optionalNodes? v)
        ofMembers? (f :: seen) n rest

/-- The node that the items of an array make up, in the order of the remaining fields. -/
def ofItems? (remaining : List NodeField) (n : Node) : List Json → Option Node
  | [] => if remaining.any shape.required then none else some n
  | v :: rest =>
    match remaining with
    | [] => none
    | f :: fields => do
      let n ← setField? f n v (fun _ => optionalRich? v) (fun _ => optionalNodes? v)
      ofItems? fields n rest

def optionalRich? : Json → Option (Option RichText)
  | .null => some none
  | .str s => some (some (.plain s))
  | .arr items => (segments? items).map fun parts => some (.segments parts)
  | _ => none

def segments? : List Json → Option (List Segment)
  | [] => some []
  | v :: rest => do
    let part ←
      match v with
      | .str s => some (.text s)
      | v => (ofJson? v).map .node
    return part :: (← segments? rest)

def optionalNodes? : Json → Option (Option (List Node))
  | .null => some none
  | .arr items => (list? items).map some
  | _ => none

def list? : List Json → Option (List Node)
  | [] => some []
  | v :: rest => do return (← ofJson? v) :: (← list? rest)

end

end Node

/-- The inline content that a value has the declared shape of. -/
def RichText.ofJson? (v : Json) : Option RichText := (Node.optionalRich? v).join

end DocTree
