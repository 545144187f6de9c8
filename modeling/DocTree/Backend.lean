import DocTree.Error
import DocTree.Log
import DocTree.Mdast
import DocTree.Plain

/-!
Backends: the ways to convert a document tree that go by a name.
-/

namespace DocTree

structure Backend where
  name : String
  description : String := ""
  aliases : List String := []
  convert : Node → Conversion
  log : Node → Conversion → List LogRecord :=
    fun _ c => c.events.filterMap Event.logRecord?

namespace Backend

def keys (b : Backend) : List String := b.name :: b.aliases

def serialize (b : Backend) (n : Node) (indent : Bool) : String :=
  let tree := (b.convert n).tree
  if indent then tree.pretty else tree.compact

/-- The log records that converting a node leaves. -/
def trace (b : Backend) (n : Node) : List LogRecord := b.log n (b.convert n)

def plain : Backend where
  name := "json"
  description := "Plain JSON dump of the AsciiDoc tree"
  convert := Plain.conversion
  log n c :=
    .opened .plain [("backend", "json"), ("root", n.props.nodeName)] ::
      c.events.filterMap Event.logRecord?

def mdast (o : Options) : Backend where
  name := "mdast"
  description := "Markdown AST (mdast) compatible JSON tree"
  convert := Mdast.conversion o
  log n c :=
    .opened .mdast [("backend", "mdast"), ("flat", toString o.flat), ("root", n.props.nodeName)] ::
      (c.events.filterMap Event.logRecord? ++
        [.event .mdast .debug "mdast conversion finished"
          [("attribute_records", toString c.data.length)]])

end Backend

end DocTree
