import DocTree.Source.Node

/-!
Building document trees: one function for each kind of node, and functions that give a node one
more property.
-/

namespace DocTree.Node

def named (nodeName context : String) : Node := { props := { nodeName, context } }

def withBlocks (n : Node) (blocks : List Node) : Node := { n with blocks := some blocks }

def addBlock (n : Node) (block : Node) : Node :=
  n.withBlocks (n.blocks.getD [] ++ [block])

def withTitle (n : Node) (title : RichText) : Node := { n with title := some title }

def withId (n : Node) (id : String) : Node := { n with props.id := some id }

def withRole (n : Node) (role : String) : Node := { n with props.role := some role }

/-- Sets an attribute. A present one keeps its place. -/
def withAttribute (n : Node) (name : String) (value : Json) : Node :=
  { n with props.attributes := some (Json.Members.set name value (n.props.attributes.getD [])) }

def withLocation (n : Node) (line : UInt64) (file : Option String) : Node :=
  { n with props.location := some { line := some line, file } }

def document (blocks : List Node) : Node := (named "document" "document").withBlocks blocks

def preamble (blocks : List Node) : Node := (named "preamble" "preamble").withBlocks blocks

def sectionOf (level : Int64) (title : RichText) (blocks : List Node) : Node :=
  { (named "section" "section").withBlocks blocks with
    title := some title, props.level := some level }

def paragraph (content : RichText) : Node :=
  { named "paragraph" "paragraph" with content := some content }

def unorderedList (items : List Node) : Node := { named "ulist" "ulist" with items := some items }

def listItem (text : RichText) : Node :=
  { (named "list_item" "list_item").withBlocks [] with text := some text }

def inlineQuoted (subType : String) (text : RichText) : Node :=
  { named "inline_quoted" "quoted" with text := some text, props.subType := some subType }

def anchor (target : String) (text : RichText) : Node :=
  { named "inline_anchor" "anchor" with
    text := some text, props.subType := some "link", props.target := some target }

def inlineImage (target : String) (alt : Option String) : Node :=
  { named "inline_image" "image" with props.target := some target, props.alt := alt }

/-- A block image has its target as an attribute and not as a property. -/
def blockImage (target : String) (alt : Option String) : Node :=
  { (named "image" "image").withAttribute "target" (.str target) with props.alt := alt }

end DocTree.Node
