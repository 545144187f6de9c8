import DocTree.Source.Node

/-!
What the conversion of inline content gives: bare text, a node of the new tree, or several of
these. Every JSON value can be read as a fragment; a value that is none of the three is kept as
it is.
-/

namespace DocTree

inductive Fragment where
  | leaf (text : String)
  | node (record : Json.Members)
  | sequence (parts : List Fragment)
  | other (value : Json)
  deriving Inhabited

namespace Fragment

mutual

/-- Reads a value as a fragment: text, object, array, or anything else. -/
def ofJson : Json → Fragment
  | .str s => .leaf s
  | .obj record => .node record
  | .arr items => .sequence (ofList items)
  | .null => .other .null
  | .bool b => .other (.bool b)
  | .num n => .other (.num n)

def ofList : List Json → List Fragment
  | [] => []
  | v :: rest => ofJson v :: ofList rest

end

mutual

def toJson : Fragment → Json
  | .leaf text => .str text
  | .node record => .obj record
  | .sequence parts => .arr (toList parts)
  | .other value => value

def toList : List Fragment → List Json
  | [] => []
  | f :: rest => toJson f :: toList rest

end

/-- Joins every run of neighbouring texts into one text. -/
def mergeLeaves : List Fragment → List Fragment
  | [] => []
  | .leaf s :: rest =>
    match mergeLeaves rest with
    | .leaf t :: more => .leaf (s ++ t) :: more
    | merged => .leaf s :: merged
  | f :: rest => f :: mergeLeaves rest

/-- The fragment that parts make up: neighbouring texts are joined, and a single part stands for
itself. -/
def ofParts (parts : List Fragment) : Fragment :=
  match mergeLeaves parts with
  | [single] => single
  | merged => .sequence merged

end Fragment

namespace Json

mutual

/-- The text in a value: strings are text, arrays hold the texts of their items, and an object
has the text of its `value`, or else that of its `children`. -/
def textContent : Json → String
  | .str s => s
  | .arr items => textOfItems items
  | .obj members =>
    match textUnder? "value" members with
    | some s => s
    | none => (textUnder? "children" members).getD ""
  | .null | .bool _ | .num _ => ""

def textOfItems : List Json → String
  | [] => ""
  | v :: rest => textContent v ++ textOfItems rest

def textUnder? (key : String) : Members → Option String
  | [] => none
  | (k, v) :: rest => if k = key then some (textContent v) else textUnder? key rest

end

end Json

def Fragment.textContent (f : Fragment) : String := f.toJson.textContent

/-- Converts segments with a conversion of nodes: text is kept, and the results are joined. -/
def Fragment.decode (convert : Node → Fragment) (segments : List Segment) : Fragment :=
  .ofParts <| segments.map fun
    | .text s => .leaf s
    | .node n => convert n

end DocTree
