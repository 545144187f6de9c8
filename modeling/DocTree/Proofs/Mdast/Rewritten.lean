import DocTree.Proofs.Mdast.Events
import DocTree.Proofs.Mdast.Text
import DocTree.Proofs.Mdast.Tree

/-!
Conversions of rewritten trees. Where a rewriting keeps of every node what its record begins and
ends with, up to the members of some keys, the converted tree of the rewritten tree is the converted
tree without these members at any depth. Payloads follow by induction along the walk.
-/

namespace DocTree

open RichText (segmentsOf)
open Segment (nodes mapNode)
open Node (Body ItemMapped)

namespace Mdast

/-- The keys are none of a payload, and not that of the depth of a heading. -/
def Spare (keys : List String) : Prop := ∀ key ∈ "depth" :: payloadKeys, key ∉ keys

/-- One step of a rewriting `f`, seen from two conversions: what is read of the node itself gives
the same members but for those of some keys, and its body is mapped. -/
structure Rewrites (keys : List String) (o o' : Options) (f : Node → Node) : Prop where
  spare : Spare keys
  flat_eq : o'.flat = o.flat
  typeName_eq : ∀ n, typeName (f n).props = typeName n.props
  depth_eq : ∀ n, n.props.kind = .section →
    headingDepth (f n).props.level = headingDepth n.props.level
  leading_eq : ∀ n, leading o' (f n).props = Json.withoutMembers keys (leading o n.props)
  trailing_eq : ∀ n, trailing o' (f n) = Json.withoutMembers keys (trailing o n)
  body_mapped : ∀ n : Node, Body.Mapped f n.body (f n).body

theorem kind_of_body_titled {n : Node} {title parts : List Segment}
    (h : n.body = .titled title parts) : n.props.kind = .section := by
  cases hk : n.props.kind with
  | «section» => rfl
  | document | preamble | other | inlineQuoted =>
      simp only [Node.body, hk] at h
      split at h <;> cases h
  | paragraph | inlineAnchor | unorderedList | inlineImage | image =>
      simp only [Node.body, hk] at h
      cases h

theorem children_eq_under (o : Options) (n : Node) :
    children o n = under "children" (.obj (record o n)) := by
  rw [under, lookup_record o n (by decide) (by decide), payload, children]
  cases n.body <;> rfl

section without

variable {keys : List String}

theorem under_without {key : String} (hkey : key ∉ keys) (v : Json) :
    under key (v.without keys) = (under key v).map (Json.without keys) := by
  have helements (w : Json) :
      elements (w.without keys) = (elements w).map (Json.without keys) := by
    cases w with
    | arr items => exact Json.withoutItems_eq items
    | obj _ | null | bool _ | num _ | str _ => rfl
  cases v with
  | obj members =>
      rw [Json.without, under, under, Json.lookup_withoutMembers hkey]
      cases members.lookup key with
      | none => rfl
      | some w => exact helements w
  | arr _ | null | bool _ | num _ | str _ => rfl

variable (hkeys : Spare keys)

include hkeys

theorem without_textNode (s : String) : (textNode s).without keys = textNode s := by
  rw [textNode, Json.without, Json.withoutMembers_cons (hkeys "type" (by decide)),
    Json.withoutMembers_cons (hkeys "value" (by decide))]
  rfl

theorem without_heading (p : Properties) (vs : List Json) :
    (heading p vs).without keys = heading p (vs.map (Json.without keys)) := by
  rw [heading, Json.without, Json.withoutMembers_cons (hkeys "type" (by decide)),
    Json.withoutMembers_cons (hkeys "depth" (by decide)),
    Json.withoutMembers_cons (hkeys "children" (by decide)), Json.without, Json.withoutItems_eq]
  rfl

theorem without_listItem (text : Json) (blocks : List Json) :
    (listItem text blocks).without keys =
      listItem (text.without keys) (blocks.map (Json.without keys)) := by
  rw [listItem, Json.without, Json.withoutMembers_cons (hkeys "text" (by decide)),
    Json.withoutMembers_cons (hkeys "blocks" (by decide)), Json.without, Json.withoutItems_eq]
  rfl

theorem withoutMembers_payload (key : String) (h : key ∈ payloadKeys) (v : Json) :
    Json.withoutMembers keys [(key, v)] = [(key, v.without keys)] :=
  Json.withoutMembers_cons (hkeys key (List.mem_cons_of_mem _ h)) v []

end without

namespace Rewrites

variable {keys : List String} {o o' : Options} {f : Node → Node} (h : Rewrites keys o o' f)

include h

theorem record_of_payload {n : Node}
    (hpayload : payload o' (f n) = Json.withoutMembers keys (payload o n)) :
    record o' (f n) = Json.withoutMembers keys (record o n) := by
  rw [record_eq, record_eq, h.typeName_eq, h.leading_eq, h.trailing_eq, hpayload,
    Json.withoutMembers_cons (h.spare "type" (by decide)), Json.withoutMembers_append,
    Json.withoutMembers_append]
  rfl

theorem opened_of_record {n : Node}
    (hrecord : record o' (f n) = Json.withoutMembers keys (record o n)) :
    opened o' (f n) = (opened o n).map (Json.without keys) := by
  rw [opened, opened, h.flat_eq, h.typeName_eq]
  split
  · rw [children_eq_under, children_eq_under, hrecord]
    exact under_without (h.spare "children" (by decide)) (.obj (record o n))
  · rw [hrecord]
    rfl

theorem childNodes_mapped {parts parts' : List Segment} (hparts : Segment.Mapped f parts parts')
    (hrecord : ∀ n ∈ nodes parts, record o' (f n) = Json.withoutMembers keys (record o n)) :
    childNodes o' parts' = (childNodes o parts).map (Json.without keys) := by
  rw [childNodes, childNodes, hparts, List.flatMap_map, List.map_flatMap]
  refine List.flatMap_congr fun part hpart => ?_
  cases part with
  | text s => exact congrArg ([·]) (without_textNode h.spare s).symm
  | node n =>
      rw [← Segment.mem_nodes, Segment.nodes_merge] at hpart
      rw [mapNode, segmentNodes_node, segmentNodes_node]
      exact h.opened_of_record (hrecord n hpart)

theorem item_mapped {n n' : Node} (hitem : ItemMapped f n n')
    (hrecord : ∀ m ∈ nodes (segmentsOf n.text) ++ n.blocks.getD [],
      record o' (f m) = Json.withoutMembers keys (record o m)) :
    item o' n' = (item o n).without keys := by
  rw [List.forall_mem_append] at hrecord
  obtain ⟨htextNodes, hblockNodes⟩ := hrecord
  have htext : (n'.text.elim (.str "") fun t => inlineValue o' t.toSegments) =
      (n.text.elim (.str "") fun t => inlineValue o t.toSegments).without keys := by
    have htext := hitem.text
    generalize n.text = text, n'.text = text' at htext htextNodes
    cases htext with
    | none => rfl
    | some ht => exact Segment.inlineValue_mapped ht htextNodes
  have hblocks : (n'.blocks.getD []).map (fun b => Json.obj (record o' b)) =
      ((n.blocks.getD []).map fun b => Json.obj (record o b)).map (Json.without keys) := by
    rw [hitem.blocks, List.map_map, List.map_map]
    exact List.map_congr_left fun b hb => congrArg Json.obj (hblockNodes b hb)
  rw [item, item, htext, hblocks, without_listItem h.spare]

theorem items_mapped {items items' : List Node} (hitems : List.Forall₂ (ItemMapped f) items items')
    (hrecord : ∀ m ∈ (Body.list items).visited,
      record o' (f m) = Json.withoutMembers keys (record o m)) :
    items'.map (item o') = (items.map (item o)).map (Json.without keys) := by
  induction hitems with
  | nil => rfl
  | cons hitem _ ih =>
      rw [Body.visited, List.flatMap_cons, List.forall_mem_append] at hrecord
      simp only [List.map_cons, h.item_mapped hitem hrecord.1, ih hrecord.2]

theorem payload_mapped {n : Node}
    (hrecord : ∀ m ∈ n.body.visited, record o' (f m) = Json.withoutMembers keys (record o m)) :
    payload o' (f n) = Json.withoutMembers keys (payload o n) := by
  have hbody := h.body_mapped n
  have hheading (title parts : List Segment) (hb : n.body = .titled title parts)
      (vs : List Json) : heading (f n).props vs = heading n.props vs := by
    rw [heading, heading, h.depth_eq n (kind_of_body_titled hb)]
  have hkeys := withoutMembers_payload h.spare
  rw [payload, payload]
  generalize n.body = b, (f n).body = b' at hbody hheading hrecord
  cases hbody with
  | nothing => rfl
  | flow hparts =>
      rw [hkeys "children" (by decide), Json.without, Json.withoutItems_eq,
        ← h.childNodes_mapped hparts hrecord]
  | titled htitle hparts =>
      have htitle := h.childNodes_mapped htitle fun m hm => hrecord m (List.mem_append_left _ hm)
      have hparts := h.childNodes_mapped hparts fun m hm => hrecord m (List.mem_append_right _ hm)
      rw [hkeys "children" (by decide), Json.without, Json.withoutItems, without_heading h.spare,
        Json.withoutItems_eq, ← htitle, ← hparts, ← hheading _ _ rfl]
  | list hitems =>
      rw [hkeys "items" (by decide), Json.without, Json.withoutItems_eq,
        ← h.items_mapped hitems hrecord]
  | code hparts =>
      -- Code has the text of its nodes, which is the same for all ways to convert them.
      have htext := segmentsText_mapped hparts fun m _ =>
        textContent_record_mapped h.body_mapped o o' m
      rw [segmentsText, segmentsText] at htext
      rw [hkeys "value" (by decide), Json.without, ← htext]

theorem record_mapped (n : Node) :
    record o' (f n) = Json.withoutMembers keys (record o n) := by
  induction n using Node.walk_induction with
  | step n ih => exact h.record_of_payload (h.payload_mapped ih)

theorem tree_mapped (n : Node) :
    (conversion o' (f n)).tree = (conversion o n).tree.without keys :=
  congrArg Json.obj (h.record_mapped n)

/-- Events that change for every node in one way change so for the whole conversion. -/
theorem events_map {g : Event → Event} (hevents : ∀ n : Node, (f n).events = n.events.map g)
    (n : Node) : (conversion o' (f n)).events = (conversion o n).events.map g := by
  simp only [conversion, Conversion.ofTraced, Traced.events_map, events_eq_walk,
    Node.walk_mapped h.body_mapped n, List.flatMap_map, List.map_flatMap, hevents]

theorem events_mapped (hevents : ∀ n : Node, (f n).events = n.events) (n : Node) :
    (conversion o' (f n)).events = (conversion o n).events := by
  rw [h.events_map (g := id) (fun n => by rw [hevents, List.map_id]), List.map_id]

end Rewrites

/-- A rewriting that changes no member of any record changes nothing at all. -/
theorem conversion_mapped {o : Options} {f : Node → Node} (h : Rewrites [] o o f)
    (hevents : ∀ n : Node, (f n).events = n.events) (n : Node) :
    conversion o (f n) = conversion o n := by
  have htree := h.tree_mapped n
  have hevents := h.events_mapped hevents n
  rw [Json.without_nil] at htree
  generalize conversion o (f n) = c, conversion o n = c' at htree hevents
  cases c
  cases c'
  cases htree
  cases hevents
  rfl

end Mdast

end DocTree
