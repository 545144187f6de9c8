import DocTree.Proofs.Plain.Traversal
import DocTree.Source.Shape

/-!
Plain trees and their sources, side by side. Neighbouring texts of the source are one text of the
tree, so a traversal of the tree and one of the source agree in whatever does not tell a text from
its pieces: nothing is lost and nothing is there twice.
-/

namespace DocTree.Plain

open Mdast (elements under isObject)
open RichText (segmentsOf)
open Segment (nodes)

/-- The keys under which a record holds other records. -/
def payloadKeys : List String := ["blocks", "content", "text", "items"]

theorem lookup_record (n : Node) {key : String} (hkey : key ∈ payloadKeys) :
    (record n).lookup key = (payload n).lookup key := by
  have hleading : (leading n).lookup key = none := by
    simp only [payloadKeys, List.mem_cons, List.not_mem_nil, or_false] at hkey
    rcases hkey with rfl | rfl | rfl | rfl <;> cases hk : n.props.kind <;>
      simp [leading, hk, header, attributesMember, textMember, List.lookup_append,
        Json.lookup_member?, Json.lookup_cons]
  have htrailing : (trailing n.props).lookup key = none := by
    simp only [payloadKeys, List.mem_cons, List.not_mem_nil, or_false] at hkey
    rcases hkey with rfl | rfl | rfl | rfl <;> cases hk : n.props.kind <;>
      simp [trailing, hk, textMember, List.lookup_append, Json.lookup_member?]
  rw [record_eq, List.lookup_append, List.lookup_append, hleading, htrailing, Option.none_or,
    Option.or_none]

section traversal

variable {β : Type} {f : Json → List β} {g : Segment → List β}

/-- What is read of texts as of their pieces does not show how they are joined. -/
theorem flatMap_merge (hjoin : ∀ s t, g (.text (s ++ t)) = g (.text s) ++ g (.text t))
    (parts : List Segment) : (Segment.merge parts).flatMap g = parts.flatMap g := by
  induction parts with
  | nil => rfl
  | cons part rest ih =>
      cases part with
      | node n => rw [Segment.merge, List.flatMap_cons, List.flatMap_cons, ih]
      | text s =>
          rw [List.flatMap_cons, ← ih, Segment.merge]
          cases Segment.merge rest with
          | nil => rfl
          | cons next more =>
              cases next with
              | node n => rfl
              | text t =>
                  simp only [List.flatMap_cons, hjoin, List.append_assoc]

/-- The value of inline content, with one element or with several, has the elements of its
segments. -/
theorem flatMap_elements_inlineValue
    (hjoin : ∀ s t, g (.text (s ++ t)) = g (.text s) ++ g (.text t))
    (htext : ∀ s, f (.str s) = g (.text s)) {parts : List Segment}
    (hnode : ∀ n ∈ nodes parts, f (.obj (record n)) = g (.node n)) :
    (elements (Segment.inlineValue record parts)).flatMap f = parts.flatMap g := by
  have hvalue : ∀ part ∈ Segment.merge parts, f (part.value record) = g part := by
    intro part hpart
    cases part with
    | text s => exact htext s
    | node n => exact hnode n (by rwa [← Segment.nodes_merge, Segment.mem_nodes])
  have helements : elements (Segment.inlineValue record parts) =
      (Segment.merge parts).map (Segment.value record) := by
    rw [Segment.inlineValue]
    split
    · next part h =>
        rw [h]
        cases part <;> rfl
    · rfl
  rw [helements, List.flatMap_map, ← flatMap_merge hjoin]
  exact List.flatMap_congr hvalue

theorem flatMap_under_item (order : ItemOrder)
    (hjoin : ∀ s t, g (.text (s ++ t)) = g (.text s) ++ g (.text t))
    (htext : ∀ s, f (.str s) = g (.text s)) {n : Node}
    (hnode : ∀ m ∈ n.blocks.getD [] ++ nodes (segmentsOf n.text),
      f (.obj (record m)) = g (.node m)) :
    (order.arrange (under "text" (item n)) (under "blocks" (item n))).flatMap f =
      (order.arrange (segmentsOf n.text) ((n.blocks.getD []).map .node)).flatMap g := by
  rw [List.forall_mem_append] at hnode
  have hparts : (under "text" (item n)).flatMap f = (segmentsOf n.text).flatMap g :=
    flatMap_elements_inlineValue hjoin htext hnode.2
  have hblocks : (under "blocks" (item n)).flatMap f =
      ((n.blocks.getD []).map Segment.node).flatMap g := by
    rw [List.flatMap_map]
    exact (List.flatMap_map ..).trans (List.flatMap_congr hnode.1)
  rw [ItemOrder.flatMap_arrange, ItemOrder.flatMap_arrange, hparts, hblocks]

theorem key_of_body_inline {n : Node} {key : String} {parts : List Segment}
    (h : body n = .inline key parts) : key = "content" ∨ key = "text" := by
  cases hk : n.props.kind with
  | paragraph | inlineQuoted =>
      simp only [body, hk] at h
      cases h
      exact .inr rfl
  | unorderedList =>
      simp only [body, hk] at h
      cases h
  | document | preamble | «section» | inlineAnchor | inlineImage | image | other =>
      simp only [body, hk] at h
      split at h <;> cases h
      exact .inl rfl

theorem under_record (n : Node) {key : String} (hkey : key ∈ payloadKeys) :
    under key (.obj (record n)) = under key (.obj (payload n)) :=
  congrArg (fun v => v.elim [] elements) (lookup_record n hkey)

theorem below_record (order : ItemOrder) (n : Node) :
    below order (.obj (record n)) =
      match body n with
      | .nothing => []
      | .blocks ns => ns.map fun b => .obj (record b)
      | .inline _ parts => elements (Segment.inlineValue record parts)
      | .list items => (items.map item).flatMap fun i =>
          order.arrange (under "text" i) (under "blocks" i) := by
  rw [below, under_record n (by decide), under_record n (by decide), under_record n (by decide),
    under_record n (by decide), payload]
  cases hb : body n with
  | nothing | list items => rfl
  | blocks ns => simp [under, Json.lookup_cons, elements]
  | inline key parts =>
      rcases key_of_body_inline hb with rfl | rfl <;> simp [under, Json.lookup_cons]

/-- One step of a traversal: below the record of a node is what the segments of the node are
converted to. -/
theorem flatMap_below_record (order : ItemOrder)
    (hjoin : ∀ s t, g (.text (s ++ t)) = g (.text s) ++ g (.text t))
    (htext : ∀ s, f (.str s) = g (.text s)) {n : Node}
    (hnode : ∀ m ∈ (body n).visited, f (.obj (record m)) = g (.node m)) :
    (below order (.obj (record n))).flatMap f = ((body n).segments order).flatMap g := by
  rw [below_record]
  generalize body n = b at hnode
  cases b with
  | nothing => rfl
  | blocks ns =>
      simp only [Body.segments, List.flatMap_map]
      exact List.flatMap_congr hnode
  | inline key parts => exact flatMap_elements_inlineValue hjoin htext hnode
  | list items =>
      simp only [Body.segments, List.flatMap_assoc, List.flatMap_map]
      refine List.flatMap_congr fun i hi => flatMap_under_item order hjoin htext fun m hm => ?_
      exact hnode m (List.mem_flatMap.mpr ⟨i, hi, hm⟩)

/-- A traversal of a plain tree meets what a traversal of its source meets, apart from how texts
are joined. -/
theorem flatMap_treeParts (order : ItemOrder) {f : Json → List β} {g : Segment → List β}
    (hjoin : ∀ s t, g (.text (s ++ t)) = g (.text s) ++ g (.text t))
    (htext : ∀ s, f (.str s) = g (.text s)) (hnode : ∀ n, f (.obj (record n)) = g (.node n))
    (n : Node) :
    (treeParts order (.obj (record n))).flatMap f =
      (sourceParts order (.node n)).flatMap g := by
  induction n using walk_induction with
  | step n ih =>
      have hbelow := flatMap_below_record order (n := n)
        (f := fun v => (treeParts order v).flatMap f)
        (g := fun part => (sourceParts order part).flatMap g)
        (fun s t => by simp [sourceParts_text, hjoin])
        (fun s => by
          rw [treeParts_eq, sourceParts_text]
          simpa [below, under] using htext s) ih
      rw [treeParts_eq, sourceParts_eq, List.flatMap_cons, List.flatMap_cons, hnode,
        List.flatMap_assoc, List.flatMap_assoc, hbelow]
      rfl

end traversal

def records (order : ItemOrder) (v : Json) : List Json := (treeParts order v).filter isObject

/-- The nodes that a conversion reads, each before those that are read below it. -/
def visitedNodes (order : ItemOrder) (n : Node) : List Node := nodes (sourceParts order (.node n))

theorem records_eq (order : ItemOrder) (n : Node) :
    records order (.obj (record n)) = (visitedNodes order n).map fun m => .obj (record m) := by
  have h := flatMap_treeParts order (f := fun v => if isObject v then [v] else [])
    (g := fun part => part.node?.toList.map fun m => .obj (record m))
    (fun _ _ => rfl) (fun _ => rfl) (fun _ => rfl) n
  have hfilter (vs : List Json) :
      vs.flatMap (fun v => if isObject v then [v] else []) = vs.filter isObject := by
    induction vs with
    | nil => rfl
    | cons v vs ih =>
        rw [List.flatMap_cons, ih, List.filter_cons]
        split <;> rfl
  rw [records, ← hfilter, h, visitedNodes, nodes, List.filterMap_eq_flatMap_toList,
    List.map_flatMap]

/-- The texts of a plain tree, in the order of a traversal. -/
def texts (order : ItemOrder) (v : Json) : List String := (treeParts order v).filterMap text?

/-- The texts that a conversion reads, in the order of a traversal. -/
def visitedTexts (order : ItemOrder) (n : Node) : List String :=
  (sourceParts order (.node n)).filterMap fun
    | .text s => some s
    | .node _ => none

theorem join_texts_eq (order : ItemOrder) (n : Node) :
    String.join (texts order (.obj (record n))) = String.join (visitedTexts order n) := by
  have h := flatMap_treeParts order (f := fun v => (text? v).toList.flatMap String.toList)
    (g := fun | .text s => s.toList | .node _ => [])
    (fun _ _ => String.toList_append) (fun s => by simp [text?]) (fun _ => rfl) n
  rw [← String.toList_inj, String.toList_join, String.toList_join, texts, visitedTexts,
    List.filterMap_eq_flatMap_toList, List.filterMap_eq_flatMap_toList, List.flatMap_assoc,
    List.flatMap_assoc, h]
  refine List.flatMap_congr fun part _ => ?_
  cases part <;> simp

/-- What a record tells its node by. -/
def nameAndContext : Json → Option String × Option String
  | .obj members => (Json.Members.string? "name" members, Json.Members.string? "context" members)
  | _ => (none, none)

theorem nameAndContext_record (n : Node) :
    nameAndContext (.obj (record n)) = (some n.props.nodeName, some n.props.context) := by
  have hheader : ∃ rest, record n = header n.props ++ rest := by
    rw [record_eq, leading]
    cases n.props.kind <;> simp only [List.append_assoc] <;> exact ⟨_, rfl⟩
  obtain ⟨rest, h⟩ := hheader
  rw [h]
  rfl

/-- The keys of payloads that a record has. -/
def heldKeys : Json → List String
  | .obj members => payloadKeys.filter fun key => (members.lookup key).isSome
  | _ => []

theorem length_heldKeys_record (n : Node) : (heldKeys (.obj (record n))).length ≤ 1 := by
  have hlookup : heldKeys (.obj (record n)) =
      payloadKeys.filter fun key => ((payload n).lookup key).isSome :=
    List.filter_congr fun key hkey => by rw [lookup_record n hkey]
  rw [hlookup, payload]
  cases hb : body n with
  | nothing => decide
  | blocks ns => simp [payloadKeys, Json.lookup_cons]
  | list items => simp [payloadKeys, Json.lookup_cons]
  | inline key parts =>
      rcases key_of_body_inline hb with rfl | rfl <;> simp [payloadKeys, Json.lookup_cons]

/-- Nothing is lost and nothing is there twice: a plain tree has, in order, one record for every
node that is read and the texts that are read, and no record holds two payloads. -/
theorem tree_keeps_nodes_and_texts (n : Node) :
    (records .textFirst (conversion n).tree).map nameAndContext =
        ((visitedNodes .textFirst n).map fun m => (some m.props.nodeName, some m.props.context)) ∧
      String.join (texts .textFirst (conversion n).tree) =
        String.join (visitedTexts .textFirst n) ∧
      ∀ v ∈ records .textFirst (conversion n).tree, (heldKeys v).length ≤ 1 := by
  have htree : (conversion n).tree = .obj (record n) := rfl
  rw [htree, records_eq]
  refine ⟨?_, join_texts_eq .textFirst n, ?_⟩
  · rw [List.map_map]
    exact List.map_congr_left fun m _ => nameAndContext_record m
  · intro v hv
    obtain ⟨m, _, rfl⟩ := List.mem_map.mp hv
    exact length_heldKeys_record m

end DocTree.Plain
