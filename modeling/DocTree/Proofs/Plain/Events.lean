import DocTree.Proofs.Plain.Record
import DocTree.Proofs.Visited
import Mathlib.Data.List.Basic

/-!
The events of a conversion to the plain tree. A node of a kind without a shape of its own is
reported before the nodes below it are; of an item of a list, the blocks come before the text. So
the events are those of the nodes on a walk in this order.
-/

namespace DocTree.Plain

open RichText (segmentsOf)
open Segment (nodes)

/-- The nodes that a conversion goes on to, in the order of their reports. -/
def Body.visited : Body → List Node
  | .nothing => []
  | .blocks ns => ns
  | .inline _ parts => nodes parts
  | .list items => items.flatMap fun item => item.blocks.getD [] ++ nodes (segmentsOf item.text)

theorem sizeOf_lt_of_mem_visited (n : Node) : ∀ m ∈ (body n).visited, sizeOf m < sizeOf n := by
  intro m hm
  obtain ⟨p, title, content, text, blocks, items⟩ := n
  simp only [Node.mk.sizeOf_spec]
  cases hk : p.kind with
  | paragraph =>
      simp only [body, hk] at hm
      have := Node.sizeOf_lt_of_mem_content content hm
      omega
  | inlineQuoted =>
      simp only [body, hk] at hm
      have := Node.sizeOf_lt_of_mem_content text hm
      omega
  | unorderedList =>
      simp only [body, hk, Body.visited, List.mem_flatMap, List.mem_append] at hm
      obtain ⟨⟨_, _, _, itemText, itemBlocks, _⟩, hitem, hm⟩ := hm
      have hlt := Node.sizeOf_lt_of_mem_blocks items hitem
      simp only [Node.mk.sizeOf_spec] at hlt
      rcases hm with hm | hm
      · have := Node.sizeOf_lt_of_mem_blocks itemBlocks hm
        omega
      · have := Node.sizeOf_lt_of_mem_content itemText hm
        omega
  | document | preamble | «section» | inlineAnchor | inlineImage | image | other =>
      simp only [body, hk] at hm
      cases blocks with
      | some ns =>
          have := Node.sizeOf_lt_of_mem_blocks (some ns) hm
          omega
      | none =>
          cases content with
          | none => cases hm
          | some t =>
              have := Node.sizeOf_lt_of_mem_content (some t) hm
              omega

def descent : Descent Node where
  next n := (body n).visited
  wellFounded := Descent.wellFounded_of_sizeOf_lt sizeOf_lt_of_mem_visited

/-- All nodes that the conversion of a node visits, in the order of their reports. -/
def walk (n : Node) : List Node := descent.preorder n

theorem walk_eq (n : Node) : walk n = n :: (body n).visited.flatMap walk := descent.preorder_eq n

theorem walk_induction {P : Node → Prop}
    (step : ∀ n : Node, (∀ m ∈ (body n).visited, P m) → P n) (n : Node) : P n :=
  descent.induction step n

/-- What is reported of a node. -/
def unknown? (n : Node) : Option Diagnostic :=
  match n.props.kind with
  | .inlineAnchor | .inlineImage | .image | .other =>
    some (.unknownNodeKind n.props.context n.props.nodeName)
  | .document | .preamble | .section | .paragraph | .unorderedList | .inlineQuoted => none

def reports (n : Node) : List Event := ((unknown? n).map Event.report).toList

theorem events_reportUnknown (n : Node) : (reportUnknown n.props).events = reports n := by
  rw [reportUnknown, reports, unknown?]
  cases n.props.kind <;> rfl

def nodeEvents (ns : List Node) : List Event := ns.flatMap fun n => (convert n).events

theorem nodeEvents_append (ms ns : List Node) :
    nodeEvents (ms ++ ns) = nodeEvents ms ++ nodeEvents ns := List.flatMap_append

theorem events_convertAll (ns : List Node) : (convertAll ns).events = nodeEvents ns := by
  induction ns with
  | nil => rfl
  | cons n ns ih => simp [convertAll, ih, nodeEvents]

theorem events_convertBlocks (blocks : Option (List Node)) :
    (convertBlocks blocks).events = nodeEvents (blocks.getD []) := by
  cases blocks with
  | none => rfl
  | some ns => exact events_convertAll ns

theorem events_decodeParts (parts : List Segment) :
    (decodeParts parts).events = nodeEvents (nodes parts) := by
  induction parts with
  | nil => rfl
  | cons part rest ih => cases part <;> simp [decodeParts, decodePart, ih, nodeEvents]

theorem events_decodeRich (t : RichText) :
    (decodeRich t).events = nodeEvents (nodes t.toSegments) := by
  cases t with
  | plain s => rfl
  | segments parts => simp [decodeRich, events_decodeParts, RichText.toSegments]

theorem events_decode (content : Option RichText) :
    (decode content).events = nodeEvents (nodes (segmentsOf content)) := by
  cases content with
  | none => rfl
  | some t =>
      simp only [decode, Traced.events_bind, Traced.events_pure, List.append_nil]
      exact events_decodeRich t

theorem events_convertItems? (items : Option (List Node)) :
    (convertItems? items).events = nodeEvents (Body.list (items.getD [])).visited := by
  have hitem (n : Node) : (convertItem n).events =
      nodeEvents (n.blocks.getD [] ++ nodes (segmentsOf n.text)) := by
    obtain ⟨_, _, _, text, blocks, _⟩ := n
    simp [convertItem, events_decode, events_convertBlocks, nodeEvents_append]
  have hitems (ns : List Node) :
      (convertItems ns).events = nodeEvents (Body.list ns).visited := by
    induction ns with
    | nil => rfl
    | cons n ns ih =>
        simp only [convertItems, Traced.events_bind, Traced.events_pure, List.append_nil, hitem, ih,
          Body.visited, List.flatMap_cons, nodeEvents_append]
  cases items with
  | none => rfl
  | some ns => exact hitems ns

/-- One step of a walk: a node is reported before those that it visits. -/
theorem events_convert (n : Node) :
    (convert n).events = reports n ++ nodeEvents (body n).visited := by
  have hreport := events_reportUnknown n
  obtain ⟨p, title, content, text, blocks, items⟩ := n
  rw [convert]
  cases hk : p.kind with
  | paragraph => simp [body, hk, reports, unknown?, events_decode, Body.visited]
  | inlineQuoted => simp [body, hk, reports, unknown?, events_decode, Body.visited]
  | unorderedList => simp [body, hk, reports, unknown?, events_convertItems?]
  | document | preamble | «section» | inlineAnchor | inlineImage | image | other =>
      simp only at hreport
      simp only [Traced.events_bind, hreport]
      cases blocks with
      | some ns => simp [body, hk, blocksMember, events_convertAll, Body.visited]
      | none =>
          cases content with
          | some t => simp [body, hk, contentMember, events_decodeRich, Body.visited]
          | none => simp [body, hk, contentMember, Body.visited, nodeEvents]

theorem events_eq_walk (n : Node) : (convert n).events = (walk n).flatMap reports := by
  induction n using walk_induction with
  | step n ih =>
      rw [events_convert, walk_eq, List.flatMap_cons, List.flatMap_assoc]
      exact congrArg _ (List.flatMap_congr ih)

end DocTree.Plain
