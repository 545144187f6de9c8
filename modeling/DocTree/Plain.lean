import DocTree.Conversion
import DocTree.Fragment.Basic
import DocTree.Source.Kind

/-!
Conversion to the plain tree, which keeps the vocabulary of the source. Nothing is normalized:
inline content is a string, a single node, or an array of strings and nodes. Links, images and
nodes of unknown kind are written in the general way and reported.
-/

namespace DocTree.Plain

open Json (member?)

def header (p : Properties) : Json.Members :=
  [("name", .str p.nodeName), ("context", .str p.context)]

def attributesMember (p : Properties) : Json.Members :=
  [("attributes", .obj (p.attributes.getD []))]

/-- A member that is left out where its text is missing or empty. -/
def textMember (key : String) (s : Option String) : Json.Members :=
  member? key Json.str (nonEmpty? s)

/-- A node with everything that it has to say about itself. Its body is what it holds. -/
def generalRecord (p : Properties) (title : Option RichText) (body : Json.Members) :
    Json.Members :=
  header p ++ attributesMember p ++ textMember "title" (title.map RichText.plainText) ++ body ++
    textMember "alt" p.alt ++ textMember "target" p.target ++ textMember "type" p.subType ++
    textMember "id" p.id ++ textMember "role" p.role ++ textMember "reftext" p.reftext ++
    member? "level" Json.ofInt64 (p.level.filter (· ≠ 0))

def paragraphRecord (p : Properties) (text : Json) : Json.Members :=
  header p ++ attributesMember p ++ [("text", text)]

def spanRecord (p : Properties) (text : Json) : Json.Members :=
  header p ++ member? "type" Json.str p.subType ++ member? "target" Json.str p.target ++
    [("text", text)]

def listItem (text : Json) (blocks : List Json) : Json :=
  .obj [("text", text), ("blocks", .arr blocks)]

def listRecord (p : Properties) (items : List Json) : Json.Members :=
  header p ++ [("items", .arr items)]

/-- Reports a node of a kind that has no shape of its own. -/
def reportUnknown (p : Properties) : Traced Unit :=
  match p.kind with
  | .inlineAnchor | .inlineImage | .image | .other =>
    Traced.emit (.report (.unknownNodeKind p.context p.nodeName))
  | _ => return ()

mutual

def convert : Node → Traced Json.Members
  | ⟨p, title, content, text, blocks, items⟩ =>
    match p.kind with
    | .paragraph => return paragraphRecord p (← decode content)
    | .unorderedList => return listRecord p (← convertItems? items)
    | .inlineQuoted => return spanRecord p (← decode text)
    | .document | .preamble | .section | .inlineAnchor | .inlineImage | .image | .other => do
      reportUnknown p
      let body ← if blocks.isSome then blocksMember blocks else contentMember content
      return generalRecord p title body
termination_by structural n => n

def blocksMember (blocks : Option (List Node)) : Traced Json.Members :=
  match blocks with
  | none => return []
  | some ns => return [("blocks", .arr (← convertAll ns))]
termination_by structural blocks

def contentMember (content : Option RichText) : Traced Json.Members :=
  match content with
  | none => return []
  | some t => return [("content", (← decodeRich t).toJson)]
termination_by structural content

def convertBlocks (blocks : Option (List Node)) : Traced (List Json) :=
  match blocks with
  | none => return []
  | some ns => convertAll ns
termination_by structural blocks

def convertAll : List Node → Traced (List Json)
  | [] => return []
  | n :: rest => do
    let first ← convert n
    return .obj first :: (← convertAll rest)
termination_by structural ns => ns

/-- Converts inline content; missing content is an empty sequence. -/
def decode (content : Option RichText) : Traced Json :=
  match content with
  | none => return (Fragment.ofParts []).toJson
  | some t => return (← decodeRich t).toJson
termination_by structural content

def decodeRich : RichText → Traced Fragment
  | .plain s => return .ofParts [.leaf s]
  | .segments parts => return .ofParts (← decodeParts parts)
termination_by structural t => t

def decodeParts : List Segment → Traced (List Fragment)
  | [] => return []
  | part :: rest => do
    let first ← decodePart part
    return first :: (← decodeParts rest)
termination_by structural parts => parts

def decodePart : Segment → Traced Fragment
  | .text s => return .leaf s
  | .node n => return .node (← convert n)
termination_by structural part => part

def convertItems? (items : Option (List Node)) : Traced (List Json) :=
  match items with
  | none => return []
  | some ns => convertItems ns
termination_by structural items

def convertItems : List Node → Traced (List Json)
  | [] => return []
  | n :: rest => do
    let first ← convertItem n
    return first :: (← convertItems rest)
termination_by structural ns => ns

/-- Converts an item of a list: its blocks first, then its text. -/
def convertItem : Node → Traced Json
  | ⟨_, _, _, text, blocks, _⟩ => do
    let blocks ← convertBlocks blocks
    let text ← decode text
    return listItem text blocks
termination_by structural n => n

end

/-- The plain tree of a document tree and the diagnostics beside it. -/
def conversion (n : Node) : Conversion :=
  .ofTraced (Json.obj <$> convert n)

end DocTree.Plain
