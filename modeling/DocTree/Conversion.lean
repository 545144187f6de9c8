import DocTree.Traced
import DocTree.Source.Written

/-!
The outcome of converting a document tree: the new tree, and the events of its making, which hold
the attributes that were put on record and the diagnostics.
-/

namespace DocTree

/-- The attributes of a source node, which are not part of the converted tree. -/
structure AttributeRecord where
  /-- The place of the record among all records of a conversion. -/
  ordinal : Nat
  nodeName : String
  id : Option String
  attributes : Json.Members

namespace AttributeRecord

def toJson (r : AttributeRecord) : Json :=
  .obj (("ordinal", .ofNat (UInt64.ofNat r.ordinal)) :: ("nodeName", .str r.nodeName) ::
    (Json.member? "id" Json.str r.id ++ [("attributes", .obj r.attributes)]))

/-- The records among events, numbered from an ordinal on. -/
def ofEvents (ordinal : Nat) : List Event → List AttributeRecord
  | [] => []
  | .record nodeName id attributes :: rest =>
    ⟨ordinal, nodeName, id, attributes⟩ :: ofEvents (ordinal + 1) rest
  | .enter _ :: rest | .report _ :: rest => ofEvents ordinal rest

end AttributeRecord

structure Conversion where
  tree : Json
  events : List Event := []

namespace Conversion

def ofTraced (t : Traced Json) : Conversion := ⟨t.value, t.events⟩

def data (c : Conversion) : List AttributeRecord := AttributeRecord.ofEvents 0 c.events

def diagnostics (c : Conversion) : List Diagnostic := c.events.filterMap Event.diagnostic?

end Conversion

end DocTree
