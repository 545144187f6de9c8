import DocTree.Proofs.Mdast.Children
import DocTree.Proofs.Rewriting

/-!
The text in converted nodes. It is the text of what their bodies hold, piece by piece, however
texts are joined and blocks are opened on the way, so the options have no part in it.
-/

namespace DocTree

open Json (textOfItems)
open Segment (nodes)

theorem Json.textUnder?_eq (key : String) (members : Json.Members) :
    textUnder? key members = (members.lookup key).map textContent := by
  induction members with
  | nil => rfl
  | cons m rest ih =>
      obtain ⟨k, v⟩ := m
      by_cases h : k = key <;> simp [textUnder?, lookup_cons, h, ih]

namespace Mdast

def segmentsText (o : Options) (parts : List Segment) : String :=
  textOfItems (parts.map (segmentValue o))

theorem segmentsText_merge (o : Options) (parts : List Segment) :
    segmentsText o (Segment.merge parts) = segmentsText o parts := by
  rw [segmentsText, segmentsText, ← toList_map_fragment, ← toList_map_fragment,
    ← Segment.mergeLeaves_map_fragment, Fragment.textOfItems_mergeLeaves]

def bodyText (o : Options) : Node.Body → String
  | .flow parts | .code parts => segmentsText o parts
  | .titled title parts => segmentsText o title ++ segmentsText o parts
  | .nothing | .list _ => ""

theorem textContent_record (o : Options) (n : Node) :
    (Json.obj (record o n)).textContent =
      match n.body with
      | .code parts => segmentsText o parts
      | .flow _ | .titled _ _ | .nothing | .list _ => textOfItems (children o n) := by
  rw [Json.textContent, Json.textUnder?_eq, Json.textUnder?_eq,
    lookup_record o n (by decide) (by decide), lookup_record o n (by decide) (by decide)]
  simp only [payload, children]
  cases n.body <;> rfl

theorem body_ne_code_of_wrapper {n : Node} (h : typeName n.props = wrapperType)
    (parts : List Segment) : n.body ≠ .code parts := by
  intro hb
  have hk := (Node.quoted_of_body_code hb).1
  rcases kind_of_wrapper h with h | h <;> rw [h] at hk <;> cases hk

theorem textOfItems_opened (o : Options) (n : Node) :
    textOfItems (opened o n) = (Json.obj (record o n)).textContent := by
  rw [opened]
  split
  · next h =>
      rw [textContent_record]
      cases hb : n.body with
      | code parts => exact absurd hb (body_ne_code_of_wrapper h.2 parts)
      | flow _ | titled _ _ | nothing | list _ => rfl
  · simp [textOfItems]

theorem textOfItems_childNodes (o : Options) (parts : List Segment) :
    textOfItems (childNodes o parts) = segmentsText o parts := by
  rw [← segmentsText_merge, childNodes]
  induction Segment.merge parts with
  | nil => rfl
  | cons part rest ih =>
      rw [List.flatMap_cons, Json.textOfItems_append, ih]
      cases part with
      | text s =>
          simp [textNode, segmentsText, segmentValue, textOfItems, Json.textContent,
            Json.textUnder?]
      | node n => simp [segmentsText, segmentValue, textOfItems, textOfItems_opened]

theorem textContent_record_eq (o : Options) (n : Node) :
    (Json.obj (record o n)).textContent = bodyText o n.body := by
  rw [textContent_record, children]
  cases n.body with
  | code _ | nothing | list _ => rfl
  | flow parts => exact textOfItems_childNodes o parts
  | titled title parts =>
      simp [bodyText, textOfItems, heading, Json.textContent, Json.textUnder?,
        textOfItems_childNodes]

theorem segmentsText_mapped {f : Node → Node} {o o' : Options} {parts parts' : List Segment}
    (h : Segment.Mapped f parts parts')
    (htext : ∀ n ∈ nodes parts,
      (Json.obj (record o' (f n))).textContent = (Json.obj (record o n)).textContent) :
    segmentsText o' parts' = segmentsText o parts := by
  rw [← Segment.nodes_merge] at htext
  rw [← segmentsText_merge o' parts', h, ← segmentsText_merge o parts, segmentsText, segmentsText]
  generalize Segment.merge parts = merged at htext
  induction merged with
  | nil => rfl
  | cons part rest ih =>
      cases part with
      | text s =>
          simp only [List.map_cons, Segment.mapNode, textOfItems, segmentValue, ih htext]
      | node n =>
          rw [Segment.nodes_node, List.forall_mem_cons] at htext
          simp only [List.map_cons, Segment.mapNode, textOfItems, segmentValue, htext.1,
            ih htext.2]

/-- The text of a node is the same under all options, and for all ways to cut the texts in it. -/
theorem textContent_record_mapped {f : Node → Node}
    (h : ∀ n : Node, Node.Body.Mapped f n.body (f n).body) (o o' : Options) (n : Node) :
    (Json.obj (record o' (f n))).textContent = (Json.obj (record o n)).textContent := by
  induction n using Node.walk_induction with
  | step n ih =>
      rw [textContent_record_eq, textContent_record_eq]
      have hbody := h n
      generalize n.body = b, (f n).body = b' at hbody ih
      cases hbody with
      | nothing | list _ => rfl
      | flow hparts | code hparts => exact segmentsText_mapped hparts ih
      | titled htitle hparts =>
          have htitle := segmentsText_mapped htitle fun m hm => ih m (List.mem_append_left _ hm)
          have hparts := segmentsText_mapped hparts fun m hm => ih m (List.mem_append_right _ hm)
          rw [bodyText, bodyText, htitle, hparts]

theorem textContent_record_congr (o o' : Options) (n : Node) :
    (Json.obj (record o n)).textContent = (Json.obj (record o' n)).textContent :=
  textContent_record_mapped (fun n => Node.Body.mapped_id n.body) o' o n

theorem segmentsText_congr (o o' : Options) (parts : List Segment) :
    segmentsText o parts = segmentsText o' parts :=
  segmentsText_mapped (Segment.mapped_id parts) fun n _ => textContent_record_congr o o' n

end Mdast

end DocTree
