import DocTree.Json.Basic

/-!
The document tree that an AsciiDoc processor exports. A node has a name and a context; everything
else about it may be missing, and a missing property means that the feature does not apply to the
node. Inline content is a sequence of segments, each of them text or a node of its own.
-/

namespace DocTree

structure Location where
  line : Option UInt64 := none
  file : Option String := none
  deriving DecidableEq

/-- The properties of a node that hold no other node. -/
structure Properties where
  nodeName : String
  context : String := ""
  alt : Option String := none
  target : Option String := none
  subType : Option String := none
  id : Option String := none
  role : Option String := none
  reftext : Option String := none
  level : Option Int64 := none
  attributes : Option Json.Members := none
  location : Option Location := none

mutual

structure Node where
  props : Properties
  title : Option RichText := none
  content : Option RichText := none
  text : Option RichText := none
  /-- Structural children. They take the place of `content` where a node has both. -/
  blocks : Option (List Node) := none
  items : Option (List Node) := none

/-- Inline content, given as one text or as segments. -/
inductive RichText where
  | plain (text : String)
  | segments (parts : List Segment)

inductive Segment where
  | text (text : String)
  | node (node : Node)

end

instance : Inhabited Properties := ⟨{ nodeName := "" }⟩

instance : Inhabited Node := ⟨{ props := default }⟩

/-- The segments of inline content; a text is a single one. -/
def RichText.toSegments : RichText → List Segment
  | .plain text => [.text text]
  | .segments parts => parts

/-- The segments of content that may be missing; missing content has none. -/
def RichText.segmentsOf (content : Option RichText) : List Segment :=
  content.elim [] RichText.toSegments

namespace Properties

def attribute? (p : Properties) (name : String) : Option Json :=
  p.attributes.bind (·.lookup name)

/-- Equality in which attributes are compared as sets of members. -/
def sameAs (p q : Properties) : Bool :=
  p.nodeName == q.nodeName && p.context == q.context && p.alt == q.alt && p.target == q.target &&
    p.subType == q.subType && p.id == q.id && p.role == q.role && p.reftext == q.reftext &&
    p.level == q.level && p.location == q.location &&
    match p.attributes, q.attributes with
    | some a, some b => (Json.obj a).sameAs (.obj b)
    | none, none => true
    | _, _ => false

end Properties

mutual

/-- Equality of trees up to the order of attributes. -/
def Node.sameAs (n other : Node) : Bool :=
  match n with
  | ⟨props, title, content, text, blocks, items⟩ =>
    props.sameAs other.props && sameText title other.title && sameText content other.content &&
      sameText text other.text && sameNodes? blocks other.blocks && sameNodes? items other.items
termination_by structural n

def Node.sameText (content other : Option RichText) : Bool :=
  match content, other with
  | none, none => true
  | some t, some u => sameRich t u
  | _, _ => false
termination_by structural content

def Node.sameRich (t other : RichText) : Bool :=
  match t, other with
  | .plain a, .plain b => a == b
  | .segments as, .segments bs => sameSegments as bs
  | _, _ => false
termination_by structural t

def Node.sameSegments (parts others : List Segment) : Bool :=
  match parts, others with
  | [], [] => true
  | p :: rest, q :: others => sameSegment p q && sameSegments rest others
  | _, _ => false
termination_by structural parts

def Node.sameSegment (part other : Segment) : Bool :=
  match part, other with
  | .text a, .text b => a == b
  | .node m, .node n => Node.sameAs m n
  | _, _ => false
termination_by structural part

def Node.sameNodes? (ns others : Option (List Node)) : Bool :=
  match ns, others with
  | none, none => true
  | some ms, some ns => sameNodes ms ns
  | _, _ => false
termination_by structural ns

def Node.sameNodes (ns others : List Node) : Bool :=
  match ns, others with
  | [], [] => true
  | m :: rest, n :: others => Node.sameAs m n && sameNodes rest others
  | _, _ => false
termination_by structural ns

end

end DocTree
