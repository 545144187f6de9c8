import DocTree.Fragment.Basic
import DocTree.Traced

/-!
The children of an Mdast node. Any fragment becomes a list of nodes: text becomes a text node, an
object with a string `type` is a node already, sequences are spliced into their surroundings, and
whatever is neither is reported and kept. In a flat list a `block` is replaced by what its own
`children` become.
-/

namespace DocTree

/-- The type of the nodes that only group others. -/
def wrapperType : String := "block"

def textNode (s : String) : Json := .obj [("type", .str "text"), ("value", .str s)]

/-- Keeps a value that is no node, and reports it. -/
def passThrough (v : Json) : Traced (List Json) := do
  Traced.emit (.report (.unknownShape v))
  return [v]

namespace Json

mutual

def normalize (flat : Bool) : Json → Traced (List Json)
  | .str s => return [textNode s]
  | .arr items => normalizeItems flat items
  | .obj record =>
    match Members.string? "type" record with
    | none => passThrough (.obj record)
    | some type =>
      if flat && type = wrapperType then normalizeUnder flat "children" record
      else return [.obj record]
  | .null => passThrough .null
  | .bool b => passThrough (.bool b)
  | .num n => passThrough (.num n)

def normalizeItems (flat : Bool) : List Json → Traced (List Json)
  | [] => return []
  | v :: rest => return (← normalize flat v) ++ (← normalizeItems flat rest)

/-- The list of nodes that the member with a key becomes; none if there is no such member. -/
def normalizeUnder (flat : Bool) (key : String) : Members → Traced (List Json)
  | [] => return []
  | (k, v) :: rest => if k = key then normalize flat v else normalizeUnder flat key rest

end

end Json

namespace Fragment

mutual

def normalize (flat : Bool) : Fragment → Traced (List Json)
  | .leaf text => return [textNode text]
  | .node record => (Json.obj record).normalize flat
  | .sequence parts => normalizeParts flat parts
  | .other value => passThrough value

def normalizeParts (flat : Bool) : List Fragment → Traced (List Json)
  | [] => return []
  | f :: rest => return (← normalize flat f) ++ (← normalizeParts flat rest)

end

end Fragment

end DocTree
