import DocTree.Mdast
import DocTree.Proofs.Merged

/-!
One step of the conversion to Mdast. The record of a node is put together from the records of the
nodes that it visits: a type, a payload that holds other nodes or their text, and members around
the payload that depend on the node itself alone.
-/

namespace DocTree.Mdast

open RichText (segmentsOf)

def record (o : Options) (n : Node) : Json.Members := (convert o n).value

def segmentNodes (o : Options) : Segment → List Json
  | .text s => [textNode s]
  | .node n => ((Json.obj (record o n)).normalize o.flat).value

/-- The children that segments become. -/
def childNodes (o : Options) (parts : List Segment) : List Json :=
  (Segment.merge parts).flatMap (segmentNodes o)

section values

variable (o : Options)

theorem value_convertAll (ns : List Node) :
    (convertAll o ns).value = ns.map fun n => .node (record o n) := by
  induction ns with
  | nil => rfl
  | cons n ns ih => simp [convertAll, ih, record]

theorem value_convertBlocks (blocks : Option (List Node)) :
    (convertBlocks o blocks).value = (blocks.getD []).map fun n => .node (record o n) := by
  cases blocks with
  | none => rfl
  | some ns => exact value_convertAll o ns

theorem value_decodeParts (parts : List Segment) :
    (decodeParts o parts).value = parts.map (Segment.fragment (record o)) := by
  induction parts with
  | nil => rfl
  | cons part rest ih =>
      have hpart : (decodePart o part).value = Segment.fragment (record o) part := by
        cases part <;> simp [decodePart, Segment.fragment, record]
      simp [decodeParts, ih, hpart]

theorem value_decodeRich (t : RichText) :
    (decodeRich o t).value = .ofParts (t.toSegments.map (Segment.fragment (record o))) := by
  cases t with
  | plain s => rfl
  | segments parts => simp [decodeRich, value_decodeParts, RichText.toSegments]

theorem value_decode (content : Option RichText) :
    (decode o content).value =
      .ofParts ((segmentsOf content).map (Segment.fragment (record o))) := by
  cases content with
  | none => rfl
  | some t => exact value_decodeRich o t

theorem value_normalize_fragments (parts : List Segment) :
    ((Fragment.ofParts (parts.map (Segment.fragment (record o)))).normalize o.flat).value =
      childNodes o parts := by
  rw [Fragment.normalize_ofParts, Fragment.value_normalizeParts,
    Segment.mergeLeaves_map_fragment, List.flatMap_map]
  refine congrArg List.flatten (List.map_congr_left fun part _ => ?_)
  cases part <;> rfl

theorem value_normalize_blocks (ns : List Node) :
    ((Fragment.sequence (ns.map fun n => .node (record o n))).normalize o.flat).value =
      childNodes o (ns.map .node) := by
  rw [childNodes, Segment.merge_map_node, Fragment.normalize, Fragment.value_normalizeParts,
    List.flatMap_map, List.flatMap_map]
  rfl

end values

def segmentValue (o : Options) : Segment → Json
  | .text s => .str s
  | .node n => .obj (record o n)

/-- The value of inline content that is not normalized. A single segment stands for itself. -/
def inlineValue (o : Options) (parts : List Segment) : Json :=
  match Segment.merge parts with
  | [part] => segmentValue o part
  | merged => .arr (merged.map (segmentValue o))

def item (o : Options) (n : Node) : Json :=
  listItem (n.text.elim (.str "") fun t => inlineValue o t.toSegments)
    ((n.blocks.getD []).map fun b => .obj (record o b))

theorem toList_map_fragment (o : Options) (parts : List Segment) :
    Fragment.toList (parts.map (Segment.fragment (record o))) = parts.map (segmentValue o) :=
  Segment.toList_map_fragment (record o) parts

theorem toJson_fragments (o : Options) (parts : List Segment) :
    (Fragment.ofParts (parts.map (Segment.fragment (record o)))).toJson =
      inlineValue o parts :=
  Segment.toJson_ofParts_fragments (record o) parts

theorem value_convertItems? (o : Options) (items : Option (List Node)) :
    (convertItems? o items).value = (items.getD []).map (item o) := by
  have hitem (n : Node) : (convertItem o n).value = item o n := by
    obtain ⟨_, _, _, text, blocks, _⟩ := n
    have htext : (itemText o text).value =
        text.elim (.str "") fun t => inlineValue o t.toSegments := by
      cases text with
      | none => rfl
      | some t => simp [itemText, value_decodeRich, toJson_fragments]
    have hblocks :
        Fragment.toJson ∘ (fun b => .node (record o b)) = fun b => .obj (record o b) := rfl
    simp [convertItem, item, htext, value_convertBlocks, Fragment.toList_eq_map, hblocks]
  have hitems (ns : List Node) : (convertItems o ns).value = ns.map (item o) := by
    induction ns with
    | nil => rfl
    | cons n ns ih => simp [convertItems, ih, hitem]
  cases items with
  | none => rfl
  | some ns => exact hitems ns

def generalChildren? (o : Options) (n : Node) : Option (List Json) :=
  match n.blocks with
  | some ns => some (childNodes o (ns.map .node))
  | none => n.content.map fun t => childNodes o t.toSegments

/-- The record of a node, put together as its kind wants it. -/
theorem record_by_kind (o : Options) (n : Node) :
    record o n =
      match n.props.kind with
      | .document | .preamble | .other =>
        generalRecord o n.props n.title (generalChildren? o n)
      | .section =>
        sectionRecord n.props (childNodes o (segmentsOf n.title))
          (childNodes o ((n.blocks.getD []).map .node))
      | .paragraph => paragraphRecord n.props (childNodes o (segmentsOf n.content))
      | .unorderedList => listRecord o n.props ((n.items.getD []).map (item o))
      | .inlineQuoted =>
        if n.props.subType = some "monospaced" then
          codeRecord (Json.textOfItems ((segmentsOf n.text).map (segmentValue o)))
        else spanRecord o n.props (childNodes o (segmentsOf n.text))
      | .inlineAnchor => linkRecord n.props (childNodes o (segmentsOf n.text))
      | .inlineImage | .image => imageRecord n.props := by
  obtain ⟨p, title, content, text, blocks, items⟩ := n
  have hblocks (ns : List Node) : (blockChildren o (some ns)).value =
      some (childNodes o (ns.map .node)) := by
    simp [blockChildren, value_convertAll, value_normalize_blocks]
  have hinline : (inlineChildren o content).value =
      content.map fun t => childNodes o t.toSegments := by
    cases content with
    | none => rfl
    | some t => simp [inlineChildren, value_decodeRich, value_normalize_fragments]
  rw [record, convert]
  cases hk : p.kind with
  | document | preamble | other => cases blocks <;> simp [hblocks, hinline, generalChildren?]
  | «section» =>
      simp [value_decode, value_normalize_fragments, value_convertBlocks, value_normalize_blocks]
  | paragraph | inlineAnchor => simp [value_decode, value_normalize_fragments]
  | unorderedList => simp [value_convertItems?]
  | inlineQuoted =>
      by_cases hs : p.subType = some "monospaced"
      · simp [hs, value_decode, Fragment.textContent_ofParts, toList_map_fragment]
      · simp [hs, value_decode, value_normalize_fragments]
  | inlineImage | image => simp

end DocTree.Mdast
