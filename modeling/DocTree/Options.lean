import DocTree.Json.Record
import DocTree.Json.Printer

/-!
The options of a conversion.
-/

namespace DocTree

structure Options where
  /-- Replace each `block` by its children wherever it is itself among the children of a node. -/
  flat : Bool := false
  /-- Leave the names and contexts of source nodes out of the converted tree. -/
  noAsciiDocData : Bool := false
  deriving DecidableEq, Inhabited

inductive OptionsField where
  | flat
  | noAsciiDocData
  deriving DecidableEq

namespace Options

open Json (ReadError RecordShape)

def shape : RecordShape OptionsField where
  name := "ConverterOptions"
  fields := [.flat, .noAsciiDocData]
  key
    | .flat => "flat"
    | .noAsciiDocData => "noAsciiDocData"
  required _ := false

def readField (f : OptionsField) (o : Options) (cs : List Char) :
    Except ReadError (Options × List Char) := do
  let (b, rest) ← Json.readBool cs
  match f with
  | .flat => .ok ({ o with flat := b }, rest)
  | .noAsciiDocData => .ok ({ o with noAsciiDocData := b }, rest)

/-- The options that a whole text spells. Those that it does not name are off. -/
def read (text : String) : Except ReadError Options := do
  let cs := text.toList
  let (lexeme, rest) ← Json.readLexeme cs
  let (o, rest) ←
    shape.readFrom (fun _ => readField) {} (Json.stepsFor cs) Json.nestingLimit lexeme rest
  Json.readEnd rest
  .ok o

def toJson (o : Options) : Json :=
  .obj [("flat", .bool o.flat), ("noAsciiDocData", .bool o.noAsciiDocData)]

end Options

end DocTree
