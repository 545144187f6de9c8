import DocTree.Conversion
import DocTree.Fragment.Normal
import DocTree.Options
import DocTree.Position
import DocTree.Source.Kind

/-!
Conversion to Mdast, the tree of Markdown tools. Documents become a `root`, preambles and sections
a `block`, a section with a heading first; a node of unknown kind becomes `unknown:` and its name.
Children are always lists of nodes. Attributes are put on record and do not enter the tree.

Two policies for missing text are in use: general nodes leave a member out where there is nothing
to say, links and images have it as `null`.
-/

namespace DocTree.Mdast

open Json (member?)

/-- The name and context of a source node, unless the options leave them out. -/
def sourceMembers (o : Options) (p : Properties) : Json.Members :=
  if o.noAsciiDocData then [] else [("name", .str p.nodeName), ("context", .str p.context)]

def positionMember (p : Properties) : Json.Members :=
  member? "position" Position.toJson p.position?

/-- A member that is left out where its text is missing or empty. -/
def textMember (key : String) (s : Option String) : Json.Members :=
  member? key Json.str (nonEmpty? s)

/-- Text, or `null` where it is missing or empty. -/
def textOrNull (s : Option String) : Json := (nonEmpty? s).elim .null .str

def generalType (p : Properties) : String :=
  match p.kind with
  | .document => "root"
  | .preamble => wrapperType
  | _ => "unknown:" ++ p.nodeName

/-- A node with everything that it has to say about itself. -/
def generalRecord (o : Options) (p : Properties) (title : Option RichText)
    (children : Option (List Json)) : Json.Members :=
  ("type", .str (generalType p)) :: (sourceMembers o p ++ member? "children" Json.arr children ++
    textMember "title" (title.map RichText.plainText) ++ textMember "alt" p.alt ++
    textMember "target" p.target ++ textMember "asciiDocType" p.subType ++ textMember "id" p.id ++
    textMember "role" p.role ++ textMember "reftext" p.reftext ++
    member? "level" Json.ofInt64 (p.level.filter (· ≠ 0)) ++ positionMember p)

def paragraphRecord (p : Properties) (children : List Json) : Json.Members :=
  ("type", .str "paragraph") :: ("children", .arr children) :: positionMember p

/-- The depth of a heading is one more than the level of its section, within 64 bits. -/
def headingDepth (level : Option Int64) : Int64 :=
  let level := level.getD 0
  if level = Int64.maxValue then level else level + 1

def heading (p : Properties) (children : List Json) : Json :=
  .obj [("type", .str "heading"), ("depth", .ofInt64 (headingDepth p.level)),
    ("children", .arr children)]

def sectionRecord (p : Properties) (title body : List Json) : Json.Members :=
  ("type", .str wrapperType) :: ("children", .arr (heading p title :: body)) :: positionMember p

/-- The type of a quoted span that is not code. -/
def spanType (p : Properties) : String :=
  match p.subType with
  | some "strong" => "strong"
  | some "emphasis" => "emphasis"
  | other => "inline:" ++ other.getD ""

def spanRecord (o : Options) (p : Properties) (children : List Json) : Json.Members :=
  ("type", .str (spanType p)) :: ("children", .arr children) :: sourceMembers o p

def codeRecord (value : String) : Json.Members :=
  [("type", .str "inlineCode"), ("value", .str value)]

def linkRecord (p : Properties) (children : List Json) : Json.Members :=
  [("type", .str "link"), ("title", textOrNull p.alt), ("url", textOrNull p.target),
    ("children", .arr children)]

/-- Where an image is found. Images in text have a target of their own, block images have it as an
attribute. -/
def imageTarget (p : Properties) : Option String :=
  match p.kind with
  | .inlineImage => p.target
  | _ => p.attributes.bind (Json.Members.string? "target")

def imageRecord (p : Properties) : Json.Members :=
  [("type", .str "image"), ("alt", textOrNull p.alt), ("url", textOrNull (imageTarget p))]

def listItem (text : Json) (blocks : List Json) : Json :=
  .obj [("text", text), ("blocks", .arr blocks)]

def listRecord (o : Options) (p : Properties) (items : List Json) : Json.Members :=
  ("type", .str "list") :: (sourceMembers o p ++ ("items", .arr items) :: positionMember p)

/-- Reports a node of a kind that has no rule of its own. -/
def reportUnknown (p : Properties) : Traced Unit :=
  match p.kind with
  | .other => Traced.emit (.report (.unknownNodeKind p.context p.nodeName))
  | _ => return ()

def recordAttributes (p : Properties) : Traced Unit :=
  match p.attributes with
  | none | some [] => return ()
  | some attributes => Traced.emit (.record p.nodeName p.id attributes)

mutual

def convert (o : Options) : Node → Traced Json.Members
  | ⟨p, title, content, text, blocks, items⟩ => do
    Traced.emit (.enter p.nodeName)
    match p.kind with
    | .document | .preamble | .other =>
      reportUnknown p
      recordAttributes p
      let children ←
        if blocks.isSome then blockChildren o blocks else inlineChildren o content
      return generalRecord o p title children
    | .section =>
      let title ← (← decode o title).normalize o.flat
      let body ← (Fragment.sequence (← convertBlocks o blocks)).normalize o.flat
      return sectionRecord p title body
    | .paragraph =>
      return paragraphRecord p (← (← decode o content).normalize o.flat)
    | .unorderedList =>
      return listRecord o p (← convertItems? o items)
    | .inlineQuoted =>
      let inner ← decode o text
      if p.subType = some "monospaced" then
        return codeRecord inner.textContent
      else
        return spanRecord o p (← inner.normalize o.flat)
    | .inlineAnchor =>
      return linkRecord p (← (← decode o text).normalize o.flat)
    | .inlineImage | .image =>
      return imageRecord p
termination_by structural n => n

def blockChildren (o : Options) (blocks : Option (List Node)) :
    Traced (Option (List Json)) :=
  match blocks with
  | none => return none
  | some ns => do
    return some (← (Fragment.sequence (← convertAll o ns)).normalize o.flat)
termination_by structural blocks

def inlineChildren (o : Options) (content : Option RichText) :
    Traced (Option (List Json)) :=
  match content with
  | none => return none
  | some t => do
    return some (← (← decodeRich o t).normalize o.flat)
termination_by structural content

def convertBlocks (o : Options) (blocks : Option (List Node)) : Traced (List Fragment) :=
  match blocks with
  | none => return []
  | some ns => convertAll o ns
termination_by structural blocks

def convertAll (o : Options) : List Node → Traced (List Fragment)
  | [] => return []
  | n :: rest => do
    let first ← convert o n
    return .node first :: (← convertAll o rest)
termination_by structural ns => ns

/-- Converts inline content; missing content is an empty sequence. -/
def decode (o : Options) (content : Option RichText) : Traced Fragment :=
  match content with
  | none => return .ofParts []
  | some t => decodeRich o t
termination_by structural content

def decodeRich (o : Options) : RichText → Traced Fragment
  | .plain s => return .ofParts [.leaf s]
  | .segments parts => return .ofParts (← decodeParts o parts)
termination_by structural t => t

def decodeParts (o : Options) : List Segment → Traced (List Fragment)
  | [] => return []
  | part :: rest => do
    let first ← decodePart o part
    return first :: (← decodeParts o rest)
termination_by structural parts => parts

def decodePart (o : Options) : Segment → Traced Fragment
  | .text s => return .leaf s
  | .node n => return .node (← convert o n)
termination_by structural part => part

def convertItems? (o : Options) (items : Option (List Node)) : Traced (List Json) :=
  match items with
  | none => return []
  | some ns => convertItems o ns
termination_by structural items

def convertItems (o : Options) : List Node → Traced (List Json)
  | [] => return []
  | n :: rest => do
    let first ← convertItem o n
    return first :: (← convertItems o rest)
termination_by structural ns => ns

/-- Converts an item of a list. Only its text and its blocks count; an item without text has an
empty one. -/
def convertItem (o : Options) : Node → Traced Json
  | ⟨_, _, _, text, blocks, _⟩ => do
    let text ← itemText o text
    let blocks ← convertBlocks o blocks
    return listItem text (Fragment.toList blocks)
termination_by structural n => n

def itemText (o : Options) (text : Option RichText) : Traced Json :=
  match text with
  | none => return .str ""
  | some t => return (← decodeRich o t).toJson
termination_by structural text

end

/-- The Mdast tree of a document tree, with everything that comes beside it. -/
def conversion (o : Options) (n : Node) : Conversion :=
  .ofTraced (Json.obj <$> convert o n)

end DocTree.Mdast
