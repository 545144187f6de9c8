import DocTree.Source.Written

/-!
Positions in the source text. A tree only knows the line on which a node begins, so a position
starts and ends at the same point, in column 0. A node without a line has no position.
-/

namespace DocTree

structure Point where
  line : UInt64
  column : UInt64
  file : Option String
  deriving DecidableEq

structure Position where
  start : Point
  stop : Point
  deriving DecidableEq

namespace Position

def ofLocation? (l : Location) : Option Position :=
  l.line.map fun line =>
    let point := { line, column := 0, file := l.file }
    ⟨point, point⟩

end Position

def Point.toJson (p : Point) : Json :=
  .obj (("line", Json.ofNat p.line) :: ("column", Json.ofNat p.column) ::
    Json.member? "file" Json.str p.file)

def Position.toJson (p : Position) : Json :=
  .obj [("start", p.start.toJson), ("end", p.stop.toJson)]

def Properties.position? (p : Properties) : Option Position :=
  p.location.bind Position.ofLocation?

end DocTree
