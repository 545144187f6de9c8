import DocTree.Source.Reader
import DocTree.Source.Written
import DocTree.Proofs.Json.RecordWriter

/-!
The fields of nodes and locations as data. What is done with one field after the other, decoding a
value, reading and writing, is here a function of the field, so that an argument about records
treats all fields at once.
-/

namespace DocTree

open Json (ReadError RecordShape)
open Json.RecordShape (put setBy)

namespace Location

theorem lawful_shape : shape.Lawful :=
  .of_nodup_keys (fun f => by cases f <;> decide) (by decide)

end Location

namespace LocationField

abbrev Value : LocationField → Type
  | .line => Option UInt64
  | .file => Option String

def line? : Json → Option UInt64
  | .num (.int n) => n.toUInt64?
  | _ => none

def decode : (f : LocationField) → Json → Option f.Value
  | .line => optional? line?
  | .file => optional? text?

def read : (f : LocationField) → List Char → Except ReadError (f.Value × List Char)
  | .line => Json.readSize?
  | .file => Json.readText?

def encode : (f : LocationField) → f.Value → Option Json
  | .line, n => n.map Json.ofNat
  | .file, s => s.map Json.str

end LocationField

namespace Location

/-- A location is the same as the values of its fields. -/
def fields : Location ≃ ((f : LocationField) → f.Value) where
  toFun l
    | .line => l.line
    | .file => l.file
  invFun x := { line := x .line, file := x .file }
  left_inv _ := rfl
  right_inv x := funext fun f => by cases f <;> rfl

theorem setField?_eq (f : LocationField) (l : Location) (v : Json) :
    setField? f l v = setBy fields LocationField.decode f l v := by
  cases f with
  | line =>
      cases v with
      | null => rfl
      | num n =>
          cases n with
          | int n =>
              simp only [setField?, setBy, LocationField.decode, optional?, LocationField.line?]
              cases n.toUInt64? <;> rfl
          | float _ => rfl
      | bool _ | str _ | arr _ | obj _ => rfl
  | file => cases v <;> rfl

theorem readField_eq (f : LocationField) (l : Location) (cs : List Char) :
    readField f l cs = f.read cs >>= fun (x, rest) => .ok (put fields f l x, rest) := by
  cases f <;> rfl

theorem toJson_eq (l : Location) :
    l.toJson = .obj (shape.written fun f => f.encode (l.fields f)) := by
  obtain ⟨line, file⟩ := l
  cases line <;> cases file <;> rfl

end Location

namespace NodeField

abbrev Value : NodeField → Type
  | .nodeName | .context => String
  | .title | .content | .text => Option RichText
  | .blocks | .items => Option (List Node)
  | .alt | .target | .subType | .id | .role | .reftext => Option String
  | .level => Option Int64
  | .attributes => Option Json.Members
  | .location => Option Location

def decode : (f : NodeField) → Json → Option f.Value
  | .nodeName | .context => text?
  | .title | .content | .text => Node.optionalRich?
  | .blocks | .items => Node.optionalNodes?
  | .alt | .target | .subType | .id | .role | .reftext => optional? text?
  | .level => optional? signed?
  | .attributes => optional? attributes?
  | .location => optional? Location.ofJson?

def read (readNodes? : List Char → Except ReadError (Option (List Node) × List Char))
    (steps room : Nat) : (f : NodeField) → List Char → Except ReadError (f.Value × List Char)
  | .nodeName | .context => Json.readText
  | .title | .content | .text => RichText.read? steps room
  | .blocks | .items => readNodes?
  | .alt | .target | .subType | .id | .role | .reftext => Json.readText?
  | .level => Json.readSigned?
  | .attributes => readAttributes? steps room
  | .location => Location.read? steps room

def encode : (f : NodeField) → f.Value → Option Json
  | .nodeName, s | .context, s => some (.str s)
  | .title, t | .content, t | .text, t => t.map Node.richToJson
  | .blocks, ns | .items, ns => ns.map fun ns => .arr (Node.listToJson ns)
  | .alt, s | .target, s | .subType, s | .id, s | .role, s | .reftext, s => s.map Json.str
  | .level, i => i.map Json.ofInt64
  | .attributes, a => a.map Json.obj
  | .location, l => l.map Location.toJson

end NodeField

namespace Node

theorem lawful_shape : shape.Lawful :=
  .of_nodup_keys (fun f => by cases f <;> decide) (by decide)

/-- A node is the same as the values of its fields. -/
def fields : Node ≃ ((f : NodeField) → f.Value) where
  toFun n
    | .nodeName => n.props.nodeName
    | .context => n.props.context
    | .title => n.title
    | .content => n.content
    | .text => n.text
    | .blocks => n.blocks
    | .items => n.items
    | .alt => n.props.alt
    | .target => n.props.target
    | .subType => n.props.subType
    | .id => n.props.id
    | .role => n.props.role
    | .reftext => n.props.reftext
    | .level => n.props.level
    | .attributes => n.props.attributes
    | .location => n.props.location
  invFun x :=
    { props :=
        { nodeName := x .nodeName, context := x .context, alt := x .alt, target := x .target
          subType := x .subType, id := x .id, role := x .role, reftext := x .reftext
          level := x .level, attributes := x .attributes, location := x .location }
      title := x .title, content := x .content, text := x .text
      blocks := x .blocks, items := x .items }
  left_inv n := by cases n; rfl
  right_inv x := funext fun f => by cases f <;> rfl

theorem setField?_eq (f : NodeField) (n : Node) (v : Json) :
    setField? f n v (fun _ => optionalRich? v) (fun _ => optionalNodes? v) =
      setBy fields NodeField.decode f n v := by
  cases f <;> rfl

theorem readField_eq (readNodes? : List Char → Except ReadError (Option (List Node) × List Char))
    (steps room : Nat) (f : NodeField) (n : Node) (cs : List Char) :
    readField readNodes? steps room f n cs =
      f.read readNodes? steps room cs >>= fun (x, rest) => .ok (put fields f n x, rest) := by
  cases f <;> rfl

/-- A value is decoded to a node as it is to any record. -/
theorem ofMembers?_eq (seen : List NodeField) (n : Node) (members : Json.Members) :
    ofMembers? seen n members =
      shape.ofMembers? (setBy fields NodeField.decode) seen n members := by
  induction members generalizing seen n with
  | nil => rw [ofMembers?, RecordShape.ofMembers?]
  | cons member members ih =>
      obtain ⟨key, v⟩ := member
      simp only [ofMembers?, RecordShape.ofMembers?, setField?_eq, ih]
      cases shape.field? key <;> rfl

theorem ofItems?_eq (remaining : List NodeField) (n : Node) (items : List Json) :
    ofItems? remaining n items =
      shape.ofItems? (setBy fields NodeField.decode) remaining n items := by
  induction items generalizing remaining n with
  | nil => rw [ofItems?, RecordShape.ofItems?]
  | cons v items ih =>
      cases remaining with
      | nil => rw [ofItems?, RecordShape.ofItems?]
      | cons f remaining =>
          rw [ofItems?, RecordShape.ofItems?]
          simp only [setField?_eq, ih]

theorem ofJson?_eq (v : Json) :
    ofJson? v = shape.ofJson? (setBy fields NodeField.decode) default v := by
  cases v with
  | null | bool _ | num _ | str _ => simp only [ofJson?, RecordShape.ofJson?]
  | obj members => rw [ofJson?, RecordShape.ofJson?, ofMembers?_eq]
  | arr items => rw [ofJson?, RecordShape.ofJson?, ofItems?_eq]

theorem toJson_eq (n : Node) :
    n.toJson = .obj (shape.written fun f => f.encode (n.fields f)) := by
  have hmember {α : Type} (key : String) (toJson : α → Json) (x : Option α) :
      Json.member? key toJson x = ((x.map toJson).map (key, ·)).toList := by
    cases x <;> rfl
  have hrich (key : String) (t : Option RichText) :
      richMember key t = ((t.map richToJson).map (key, ·)).toList := by
    cases t <;> rfl
  have hnodes (key : String) (ns : Option (List Node)) :
      nodesMember key ns = ((ns.map fun ns => .arr (listToJson ns)).map (key, ·)).toList := by
    cases ns <;> rfl
  obtain ⟨p, title, content, text, blocks, items⟩ := n
  rw [toJson, RecordShape.written, List.filterMap_eq_flatMap_toList]
  simp only [hmember, hrich, hnodes, List.append_assoc, shape, List.flatMap_cons, List.flatMap_nil,
    List.append_nil]
  rfl

end Node

end DocTree
