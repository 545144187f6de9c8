import DocTree.Source.Shape

/-!
A document tree as a JSON value. A node is an object of its fields in their declared order; the
name and the context are always there, every other field only where the node has it.
-/

namespace DocTree

namespace Json

/-- A member that is left out where there is no value for it. -/
def member? {α : Type} (key : String) (toJson : α → Json) (value : Option α) : Members :=
  match value with
  | some v => [(key, toJson v)]
  | none => []

def ofInt64 (n : Int64) : Json := .num (.int (.ofInt64 n))

end Json

open Json (member?)

def Location.toJson (l : Location) : Json :=
  .obj (member? "line" Json.ofNat l.line ++ member? "file" Json.str l.file)

namespace Node

mutual

def toJson : Node → Json
  | ⟨p, title, content, text, blocks, items⟩ =>
    .obj (("nodeName", .str p.nodeName) :: ("context", .str p.context) ::
      (richMember "title" title ++ richMember "content" content ++ richMember "text" text ++
        nodesMember "blocks" blocks ++ nodesMember "items" items ++
        member? "alt" Json.str p.alt ++ member? "target" Json.str p.target ++
        member? "type" Json.str p.subType ++ member? "id" Json.str p.id ++
        member? "role" Json.str p.role ++ member? "reftext" Json.str p.reftext ++
        member? "level" Json.ofInt64 p.level ++ member? "attributes" Json.obj p.attributes ++
        member? "sourceLocation" Location.toJson p.location))
termination_by structural n => n

def richMember (key : String) (content : Option RichText) : Json.Members :=
  match content with
  | some t => [(key, richToJson t)]
  | none => []
termination_by structural content

def nodesMember (key : String) (nodes : Option (List Node)) : Json.Members :=
  match nodes with
  | some ns => [(key, .arr (listToJson ns))]
  | none => []
termination_by structural nodes

def listToJson : List Node → List Json
  | [] => []
  | n :: rest => toJson n :: listToJson rest
termination_by structural ns => ns

def richToJson : RichText → Json
  | .plain text => .str text
  | .segments parts => .arr (segmentsToJson parts)
termination_by structural t => t

def segmentsToJson : List Segment → List Json
  | [] => []
  | part :: rest => segmentToJson part :: segmentsToJson rest
termination_by structural parts => parts

def segmentToJson : Segment → Json
  | .text s => .str s
  | .node n => toJson n
termination_by structural part => part

end

end Node

end DocTree
