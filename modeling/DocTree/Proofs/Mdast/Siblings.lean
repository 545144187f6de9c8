import DocTree.Proofs.Mdast.Events
import DocTree.Source.Build

/-!
Siblings. What the blocks of a document are converted to is put together from what each of them is
converted to alone, so no block has a part in the result of another. Only the ordinals of the data
go on from one block to the next.
-/

namespace DocTree

/-- The record as it is numbered after as many others. -/
def AttributeRecord.after (count : Nat) (r : AttributeRecord) : AttributeRecord :=
  { r with ordinal := r.ordinal + count }

namespace AttributeRecord

theorem ofEvents_after (ordinal count : Nat) (es : List Event) :
    ofEvents (ordinal + count) es = (ofEvents ordinal es).map (after count) := by
  induction es generalizing ordinal with
  | nil => rfl
  | cons e es ih =>
      cases e with
      | enter _ | report _ => exact ih ordinal
      | record nodeName id attributes =>
          have hrest := ih (ordinal + 1)
          rw [Nat.add_right_comm] at hrest
          simp only [ofEvents, List.map_cons, hrest, after]

theorem ofEvents_append (ordinal : Nat) (es fs : List Event) :
    ofEvents ordinal (es ++ fs) =
      ofEvents ordinal es ++ ofEvents (ordinal + (ofEvents ordinal es).length) fs := by
  induction es generalizing ordinal with
  | nil => rfl
  | cons e es ih =>
      cases e with
      | enter _ | report _ => exact ih ordinal
      | record nodeName id attributes =>
          simp only [List.cons_append, ofEvents, ih, List.length_cons, Nat.add_assoc,
            Nat.add_comm 1]

end AttributeRecord

/-- A document with the given blocks, and without attributes. -/
structure Node.IsDocumentOf (d : Node) (blocks : List Node) : Prop where
  kind : d.props.kind = .document
  blocks : d.blocks = some blocks
  attributes : d.props.attributes.getD [] = []

theorem Node.isDocumentOf_document (blocks : List Node) :
    (document blocks).IsDocumentOf blocks where
  kind := rfl
  blocks := rfl
  attributes := rfl

namespace Mdast

/-- The children of a converted node, if it has a list of them. -/
def children? : Json → Option (List Json)
  | .obj members =>
    match members.lookup "children" with
    | some (.arr vs) => some vs
    | _ => none
  | _ => none

/-- The children that a document has from a block which is its only one. -/
def childrenAlone (o : Options) (b : Node) : List Json :=
  (children? (conversion o (.document [b])).tree).getD []

section document

variable {d : Node} {bs : List Node} (h : d.IsDocumentOf bs) (o : Options)

include h

/-- The document itself is entered, and nothing else is done about it. -/
theorem events_document :
    (conversion o d).events = .enter d.props.nodeName :: nodeEvents o bs := by
  have hrecorded : d.recorded? = none := by
    have hattributes := h.attributes
    simp only [Node.recorded?, h.kind]
    cases ha : d.props.attributes with
    | none => rfl
    | some members =>
        rw [ha, Option.getD_some] at hattributes
        rw [hattributes]
        rfl
  have hunknown : d.unknown? = none := by simp only [Node.unknown?, h.kind]
  have hvisited : d.visited = bs := by simp only [Node.visited, h.kind, h.blocks, Option.getD_some]
  simp [conversion, Conversion.ofTraced, events_convert, Node.events, hunknown, hrecorded, hvisited]

theorem diagnostics_document :
    (conversion o d).diagnostics = (nodeEvents o bs).filterMap Event.diagnostic? := by
  rw [Conversion.diagnostics, events_document h o]
  rfl

theorem data_document :
    (conversion o d).data = AttributeRecord.ofEvents 0 (nodeEvents o bs) := by
  rw [Conversion.data, events_document h o]
  rfl

theorem children?_document_opened :
    children? (conversion o d).tree = some (bs.flatMap (opened o)) := by
  have hbody : d.body = .flow (bs.map .node) := by simp only [Node.body, h.kind, h.blocks]
  have htree : (conversion o d).tree = .obj (record o d) := rfl
  rw [htree, children?, lookup_record o d (by decide) (by decide), payload, hbody]
  simp [childNodes, List.flatMap_map]

theorem children?_document :
    children? (conversion o d).tree = some (bs.flatMap (childrenAlone o)) := by
  have halone : childrenAlone o = opened o := by
    funext b
    rw [childrenAlone, children?_document_opened (Node.isDocumentOf_document [b]) o]
    exact List.append_nil _
  rw [children?_document_opened h o, halone]

end document

/-- A conversion that has the results of two others, one after the other. -/
structure IsAppended (joint first second : Conversion) : Prop where
  children : ∃ vs ws, children? first.tree = some vs ∧ children? second.tree = some ws ∧
    children? joint.tree = some (vs ++ ws)
  diagnostics : joint.diagnostics = first.diagnostics ++ second.diagnostics
  /-- The ordinals of the second data go on from the first. -/
  data : joint.data = first.data ++ second.data.map (.after first.data.length)

/-- Converting a document is compositional in its blocks: some blocks followed by others have the
results of the first followed by those of the others, and every block adds the children that it
adds alone. -/
theorem conversion_of_siblings (o : Options) {bs cs : List Node} {first second joint : Node}
    (hfirst : first.IsDocumentOf bs) (hsecond : second.IsDocumentOf cs)
    (hjoint : joint.IsDocumentOf (bs ++ cs)) :
    IsAppended (conversion o joint) (conversion o first) (conversion o second) ∧
      children? (conversion o joint).tree = some ((bs ++ cs).flatMap (childrenAlone o)) := by
  refine ⟨⟨⟨_, _, children?_document hfirst o, children?_document hsecond o, ?_⟩, ?_, ?_⟩, ?_⟩
  · rw [children?_document hjoint, List.flatMap_append]
  · rw [diagnostics_document hjoint, diagnostics_document hfirst, diagnostics_document hsecond,
      nodeEvents_append, List.filterMap_append]
  · rw [data_document hjoint, data_document hfirst, data_document hsecond, nodeEvents_append,
      AttributeRecord.ofEvents_append, AttributeRecord.ofEvents_after]
  · exact children?_document hjoint o

/-- A sidebar of a kind that is not known, with attributes. -/
def sidebar (role : String) : Node :=
  (Node.named "sidebar" "sidebar").withAttribute "role" (.str role)

/-- A preamble with attributes of its own, around a sidebar. -/
def preambleOfSidebar : Node :=
  (Node.preamble [.paragraph (.plain "intro"), sidebar "inner"]).withAttribute "toc" (.str "left")

theorem conversion_of_siblings_flat :
    let o : Options := { flat := true }
    let bs := [sidebar "outer"]
    let cs := [preambleOfSidebar, .unorderedList []]
    let joint := conversion o (.document (bs ++ cs))
    (Node.document bs).IsDocumentOf bs ∧ (Node.document cs).IsDocumentOf cs ∧
      (Node.document (bs ++ cs)).IsDocumentOf (bs ++ cs) ∧
      (IsAppended joint (conversion o (.document bs)) (conversion o (.document cs)) ∧
        children? joint.tree = some ((bs ++ cs).flatMap (childrenAlone o))) ∧
      (children? joint.tree).map List.length = some 4 ∧
      joint.data.map AttributeRecord.ordinal = [0, 1, 2] := by
  intro o bs cs joint
  have hfirst := Node.isDocumentOf_document bs
  have hsecond := Node.isDocumentOf_document cs
  have hjoint := Node.isDocumentOf_document (bs ++ cs)
  exact ⟨hfirst, hsecond, hjoint, conversion_of_siblings o hfirst hsecond hjoint,
    by decide +kernel, by decide +kernel⟩

end Mdast

end DocTree
