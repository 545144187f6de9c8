import DocTree.Proofs.Mdast.Children
import Mathlib.Data.List.Basic

/-!
The events of a conversion. A node is entered, reported if its kind is unknown, and put on record
if it has attributes, before the nodes below it are; normalizing children adds nothing. So the
events of a whole conversion are those of the nodes on its walk, one after the other.
-/

namespace DocTree

open RichText (segmentsOf)
open Segment (nodes)

namespace Node

/-- The attributes that are put on record for a node, if there are any. -/
def recorded? (n : Node) : Option Json.Members :=
  match n.props.kind with
  | .document | .preamble | .other => n.props.attributes.filter fun members => !members.isEmpty
  | _ => none

def unknown? (n : Node) : Option Diagnostic :=
  match n.props.kind with
  | .other => some (.unknownNodeKind n.props.context n.props.nodeName)
  | _ => none

/-- The events of taking up a node. -/
def events (n : Node) : List Event :=
  .enter n.props.nodeName :: (n.unknown?.map Event.report).toList ++
    (n.recorded?.map (Event.record n.props.nodeName n.props.id)).toList

theorem events_of_known {n : Node} (h : n.props.kind ∉ [.document, .preamble, .other]) :
    n.events = [.enter n.props.nodeName] := by
  cases hk : n.props.kind with
  | document | preamble | other => simp [hk] at h
  | «section» | paragraph | unorderedList | inlineQuoted | inlineAnchor | inlineImage | image =>
      simp only [events, unknown?, recorded?, hk]
      rfl

end Node

namespace Mdast

section parts

variable (o : Options)

def nodeEvents (ns : List Node) : List Event := ns.flatMap fun n => (convert o n).events

@[simp] theorem nodeEvents_nil : nodeEvents o [] = [] := rfl

@[simp] theorem nodeEvents_cons (n : Node) (ns : List Node) :
    nodeEvents o (n :: ns) = (convert o n).events ++ nodeEvents o ns := rfl

@[simp] theorem nodeEvents_append (ms ns : List Node) :
    nodeEvents o (ms ++ ns) = nodeEvents o ms ++ nodeEvents o ns := List.flatMap_append

theorem events_convertAll (ns : List Node) : (convertAll o ns).events = nodeEvents o ns := by
  induction ns with
  | nil => rfl
  | cons n ns ih => simp [convertAll, ih]

theorem events_convertBlocks (blocks : Option (List Node)) :
    (convertBlocks o blocks).events = nodeEvents o (blocks.getD []) := by
  cases blocks with
  | none => rfl
  | some ns => exact events_convertAll o ns

theorem events_decodeParts (parts : List Segment) :
    (decodeParts o parts).events = nodeEvents o (nodes parts) := by
  induction parts with
  | nil => rfl
  | cons part rest ih => cases part <;> simp [decodeParts, decodePart, ih]

theorem events_decodeRich (t : RichText) :
    (decodeRich o t).events = nodeEvents o (nodes t.toSegments) := by
  cases t with
  | plain s => rfl
  | segments parts => simp [decodeRich, events_decodeParts, RichText.toSegments]

theorem events_decode (content : Option RichText) :
    (decode o content).events = nodeEvents o (nodes (segmentsOf content)) := by
  cases content with
  | none => rfl
  | some t => exact events_decodeRich o t

theorem events_normalize_fragments (parts : List Segment) :
    ((Fragment.ofParts (parts.map (Segment.fragment (record o)))).normalize o.flat).events =
      [] := by
  rw [Fragment.normalize_ofParts, Fragment.events_normalizeParts,
    Segment.mergeLeaves_map_fragment, List.flatMap_map, List.flatMap_eq_nil_iff]
  intro part _
  cases part with
  | text s => rfl
  | node n =>
      change ((Json.obj (record o n)).normalize o.flat).events = []
      rw [normalize_record]
      rfl

theorem events_normalize_blocks (ns : List Node) :
    ((Fragment.sequence (ns.map fun n => .node (record o n))).normalize o.flat).events = [] := by
  rw [Fragment.normalize, Fragment.events_normalizeParts, List.flatMap_map,
    List.flatMap_eq_nil_iff]
  intro n _
  change ((Json.obj (record o n)).normalize o.flat).events = []
  rw [normalize_record]
  rfl

theorem events_convertItems? (items : Option (List Node)) :
    (convertItems? o items).events = (items.getD []).flatMap fun item =>
      nodeEvents o (nodes (segmentsOf item.text) ++ item.blocks.getD []) := by
  have hitem (n : Node) : (convertItem o n).events =
      nodeEvents o (nodes (segmentsOf n.text) ++ n.blocks.getD []) := by
    obtain ⟨_, _, _, text, blocks, _⟩ := n
    have htext : (itemText o text).events = nodeEvents o (nodes (segmentsOf text)) := by
      cases text with
      | none => rfl
      | some t => simp [itemText, events_decodeRich, RichText.segmentsOf]
    simp [convertItem, htext, events_convertBlocks]
  have hitems (ns : List Node) : (convertItems o ns).events =
      ns.flatMap fun n => nodeEvents o (nodes (segmentsOf n.text) ++ n.blocks.getD []) := by
    induction ns with
    | nil => rfl
    | cons n ns ih => simp [convertItems, ih, hitem]
  cases items with
  | none => rfl
  | some ns => exact hitems ns

end parts

theorem events_reportUnknown (n : Node) :
    (reportUnknown n.props).events = (n.unknown?.map Event.report).toList := by
  rw [reportUnknown, Node.unknown?]
  cases n.props.kind <;> rfl

theorem events_recordAttributes {n : Node}
    (h : n.props.kind = .document ∨ n.props.kind = .preamble ∨ n.props.kind = .other) :
    (recordAttributes n.props).events =
      (n.recorded?.map (Event.record n.props.nodeName n.props.id)).toList := by
  have hrecorded : n.recorded? = n.props.attributes.filter fun members => !members.isEmpty := by
    rw [Node.recorded?]
    rcases h with hk | hk | hk <;> rw [hk]
  rw [hrecorded, recordAttributes]
  match n.props.attributes with
  | none | some [] | some (_ :: _) => rfl

theorem events_generalChildren (o : Options) (n : Node) :
    (if n.blocks.isSome then blockChildren o n.blocks else inlineChildren o n.content).events =
      nodeEvents o (n.blocks.getD (nodes (segmentsOf n.content))) := by
  cases n.blocks with
  | some ns =>
      simp [blockChildren, value_convertAll, events_convertAll, events_normalize_blocks]
  | none =>
      cases n.content with
      | none => rfl
      | some t =>
          simp [inlineChildren, value_decodeRich, events_decodeRich, events_normalize_fragments,
            RichText.segmentsOf]

/-- One step of a walk: the events of the node itself come before those of the nodes it visits. -/
theorem events_convert (o : Options) (n : Node) :
    (convert o n).events = n.events ++ nodeEvents o n.visited := by
  have hreport := events_reportUnknown n
  have hrecord := events_recordAttributes (n := n)
  have hchildren := events_generalChildren o n
  obtain ⟨p, title, content, text, blocks, items⟩ := n
  rw [convert]
  cases hk : p.kind with
  | document | preamble | other =>
      have hrecord := hrecord (by simp [hk])
      simp only at hreport hrecord hchildren
      simp only [Traced.events_bind, Traced.events_emit, Node.events, Node.visited, hk, hreport,
        hrecord]
      cases blocks <;> simpa using hchildren
  | «section» =>
      rw [Node.events_of_known (by simp [hk])]
      simp [Node.visited, hk, events_decode, value_decode, value_convertBlocks,
        events_normalize_fragments, events_normalize_blocks, events_convertBlocks]
  | paragraph | inlineAnchor =>
      rw [Node.events_of_known (by simp [hk])]
      simp [Node.visited, hk, events_decode, value_decode, events_normalize_fragments]
  | inlineQuoted =>
      rw [Node.events_of_known (by simp [hk])]
      by_cases hs : p.subType = some "monospaced"
      · simp [Node.visited, hk, hs, events_decode]
      · simp [Node.visited, hk, hs, events_decode, value_decode, events_normalize_fragments]
  | unorderedList =>
      rw [Node.events_of_known (by simp [hk])]
      simp [Node.visited, hk, events_convertItems?, nodeEvents, List.flatMap_assoc]
  | inlineImage | image =>
      rw [Node.events_of_known (by simp [hk])]
      simp [Node.visited, hk]

theorem events_eq_walk (o : Options) (n : Node) :
    (convert o n).events = n.walk.flatMap Node.events := by
  induction n using Node.descent.induction with
  | step n ih =>
      rw [events_convert, Node.walk_eq, List.flatMap_cons, List.flatMap_assoc]
      exact congrArg _ (List.flatMap_congr ih)

end Mdast

/-- The record that an event asks for, but for its ordinal. -/
def Event.attributeRecord? : Event → Option (Nat → AttributeRecord)
  | .record nodeName id attributes => some fun ordinal => ⟨ordinal, nodeName, id, attributes⟩
  | .enter _ | .report _ => none

theorem AttributeRecord.ofEvents_eq (ordinal : Nat) (es : List Event) :
    ofEvents ordinal es =
      (es.filterMap Event.attributeRecord?).mapIdx fun i r => r (ordinal + i) := by
  induction es generalizing ordinal with
  | nil => rfl
  | cons e es ih =>
      cases e with
      | enter _ | report _ =>
          simp only [ofEvents, ih, List.filterMap_cons, Event.attributeRecord?]
      | record nodeName id attributes =>
          simp only [ofEvents, ih, List.filterMap_cons, Event.attributeRecord?, List.mapIdx_cons,
            Nat.add_zero, Nat.add_assoc, Nat.add_comm 1]

namespace Node

/-- The attribute record of a node that has one, but for its ordinal. -/
def attributeRecord? (n : Node) : Option (Nat → AttributeRecord) :=
  n.recorded?.map fun attributes ordinal =>
    { ordinal, nodeName := n.props.nodeName, id := n.props.id, attributes }

theorem filterMap_diagnostic?_events (n : Node) :
    n.events.filterMap Event.diagnostic? = n.unknown?.toList := by
  rw [events]
  cases n.unknown? <;> cases n.recorded? <;> rfl

theorem filterMap_attributeRecord?_events (n : Node) :
    n.events.filterMap Event.attributeRecord? = n.attributeRecord?.toList := by
  rw [events, attributeRecord?]
  cases n.unknown? <;> cases n.recorded? <;> rfl

end Node

namespace Mdast

theorem diagnostics_eq_walk (o : Options) (n : Node) :
    (conversion o n).diagnostics = n.walk.filterMap Node.unknown? := by
  rw [List.filterMap_eq_flatMap_toList]
  simp only [conversion, Conversion.ofTraced, Conversion.diagnostics, Traced.events_map,
    events_eq_walk, List.filterMap_flatMap, Node.filterMap_diagnostic?_events]

theorem data_eq_walk (o : Options) (n : Node) :
    (conversion o n).data =
      (n.walk.filterMap Node.attributeRecord?).mapIdx fun ordinal r => r ordinal := by
  rw [List.filterMap_eq_flatMap_toList]
  simp only [conversion, Conversion.ofTraced, Conversion.data, Traced.events_map,
    events_eq_walk, AttributeRecord.ofEvents_eq, List.filterMap_flatMap,
    Node.filterMap_attributeRecord?_events, Nat.zero_add]

/-- What is reported and what is put on record can be read off the walk, whatever the options. -/
theorem conversion_sideOutputs (o : Options) (n : Node) :
    (conversion o n).diagnostics = n.walk.filterMap Node.unknown? ∧
      (conversion o n).data =
        ((n.walk.filterMap Node.attributeRecord?).mapIdx fun ordinal r => r ordinal) ∧
      ∀ o', (conversion o' n).diagnostics = (conversion o n).diagnostics ∧
        (conversion o' n).data = (conversion o n).data := by
  refine ⟨diagnostics_eq_walk o n, data_eq_walk o n, fun o' => ⟨?_, ?_⟩⟩
  · rw [diagnostics_eq_walk, diagnostics_eq_walk]
  · rw [data_eq_walk, data_eq_walk]

end Mdast

end DocTree
