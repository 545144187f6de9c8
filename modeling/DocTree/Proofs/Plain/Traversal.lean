import DocTree.Proofs.Mdast.Tree
import DocTree.Proofs.Plain.Events
import Mathlib.Data.List.Perm.Basic

/-!
Traversals of plain trees and of their sources. A traversal of a tree goes through the payload of
each record and meets texts and records; one of the source goes through the segments that are read
of each node and meets texts and nodes. In an item of a list either part may be taken first: the
tree has the text before the blocks, and the reports come the other way round.
-/

namespace DocTree

open RichText (segmentsOf)
open Segment (nodes)

/-- Which part of an item of a list comes first. -/
inductive ItemOrder where
  | textFirst
  | blocksFirst

def ItemOrder.arrange {α : Type} (order : ItemOrder) (text blocks : List α) : List α :=
  match order with
  | .textFirst => text ++ blocks
  | .blocksFirst => blocks ++ text

namespace ItemOrder

variable {α β : Type} (order : ItemOrder)

@[simp] theorem mem_arrange {a : α} {text blocks : List α} :
    a ∈ order.arrange text blocks ↔ a ∈ text ∨ a ∈ blocks := by
  cases order with
  | textFirst => exact List.mem_append
  | blocksFirst => exact List.mem_append.trans or_comm

theorem flatMap_arrange (f : α → List β) (text blocks : List α) :
    (order.arrange text blocks).flatMap f = order.arrange (text.flatMap f) (blocks.flatMap f) := by
  cases order <;> exact List.flatMap_append

theorem arrange_perm (other : ItemOrder) (text blocks : List α) :
    (order.arrange text blocks).Perm (other.arrange text blocks) := by
  cases order <;> cases other
  · exact .refl _
  · exact List.perm_append_comm
  · exact List.perm_append_comm
  · exact .refl _

/-- Where one part is empty, the order does not show. -/
theorem arrange_eq_of_eq_nil {text blocks : List α} (h : text = [] ∨ blocks = [])
    (other : ItemOrder) : order.arrange text blocks = other.arrange text blocks := by
  rcases h with rfl | rfl <;> cases order <;> cases other <;> simp [arrange]

end ItemOrder

namespace Plain

open Mdast (elements under isObject sizeOf_lt_of_mem_under)

/-- The texts and records directly below a record of a plain tree. -/
def below (order : ItemOrder) (v : Json) : List Json :=
  under "blocks" v ++ under "content" v ++ under "text" v ++
    (under "items" v).flatMap fun item => order.arrange (under "text" item) (under "blocks" item)

theorem sizeOf_lt_of_mem_below (order : ItemOrder) (v : Json) :
    ∀ w ∈ below order v, sizeOf w < sizeOf v := by
  intro w hw
  simp only [below, List.mem_append, List.mem_flatMap, ItemOrder.mem_arrange] at hw
  rcases hw with ((hw | hw) | hw) | ⟨item, hitem, hw | hw⟩
  · exact sizeOf_lt_of_mem_under hw
  · exact sizeOf_lt_of_mem_under hw
  · exact sizeOf_lt_of_mem_under hw
  · exact Nat.lt_trans (sizeOf_lt_of_mem_under hw) (sizeOf_lt_of_mem_under hitem)
  · exact Nat.lt_trans (sizeOf_lt_of_mem_under hw) (sizeOf_lt_of_mem_under hitem)

def treeDescent (order : ItemOrder) : Descent Json where
  next := below order
  wellFounded := Descent.wellFounded_of_sizeOf_lt (sizeOf_lt_of_mem_below order)

/-- The texts and records of a plain tree, in the order of a traversal. -/
def treeParts (order : ItemOrder) (v : Json) : List Json := (treeDescent order).preorder v

theorem treeParts_eq (order : ItemOrder) (v : Json) :
    treeParts order v = v :: (below order v).flatMap (treeParts order) :=
  (treeDescent order).preorder_eq v

/-- The segments that the conversion of a node goes on to. Blocks are segments without text. -/
def Body.segments (order : ItemOrder) : Body → List Segment
  | .nothing => []
  | .blocks ns => ns.map .node
  | .inline _ parts => parts
  | .list items => items.flatMap fun item =>
      order.arrange (segmentsOf item.text) ((item.blocks.getD []).map .node)

def segmentsBelow (order : ItemOrder) : Segment → List Segment
  | .text _ => []
  | .node n => (body n).segments order

theorem nodes_segments_blocksFirst (b : Body) : nodes (b.segments .blocksFirst) = b.visited := by
  cases b with
  | nothing => rfl
  | blocks ns => exact Segment.nodes_map_node ns
  | inline key parts => rfl
  | list items =>
      simp only [Body.segments, Body.visited, nodes, List.filterMap_flatMap]
      refine List.flatMap_congr fun item _ => ?_
      rw [ItemOrder.arrange, List.filterMap_append]
      exact congrArg (· ++ _) (Segment.nodes_map_node _)

theorem segments_perm (order other : ItemOrder) (b : Body) :
    (b.segments order).Perm (b.segments other) := by
  cases b with
  | nothing | blocks _ | inline _ _ => exact .refl _
  | list items =>
      exact List.Perm.flatMap_left items fun item _ => order.arrange_perm other _ _

/-- Nodes count by their size and texts for nothing, so that every segment is below a node. -/
noncomputable def segmentSize : Segment → Nat
  | .text _ => 0
  | .node n => sizeOf n

theorem segmentSize_lt_of_mem_segmentsBelow (order : ItemOrder) (part : Segment) :
    ∀ q ∈ segmentsBelow order part, segmentSize q < segmentSize part := by
  intro q hq
  cases part with
  | text s => cases hq
  | node n =>
      cases q with
      | text s =>
          obtain ⟨_, _, _, _, _, _⟩ := n
          simp only [segmentSize, Node.mk.sizeOf_spec]
          omega
      | node m =>
          have hm : m ∈ (body n).visited := by
            rw [← nodes_segments_blocksFirst, Segment.mem_nodes]
            exact (segments_perm order .blocksFirst (body n)).mem_iff.mp hq
          exact sizeOf_lt_of_mem_visited n m hm

def segmentDescent (order : ItemOrder) : Descent Segment where
  next := segmentsBelow order
  wellFounded := Subrelation.wf (fun h => segmentSize_lt_of_mem_segmentsBelow order _ _ h)
    (measure segmentSize).wf

/-- The texts and nodes that a conversion reads, in the order of a traversal. -/
def sourceParts (order : ItemOrder) (part : Segment) : List Segment :=
  (segmentDescent order).preorder part

theorem sourceParts_eq (order : ItemOrder) (part : Segment) :
    sourceParts order part = part :: (segmentsBelow order part).flatMap (sourceParts order) :=
  (segmentDescent order).preorder_eq part

theorem sourceParts_text (order : ItemOrder) (s : String) :
    sourceParts order (.text s) = [.text s] := by
  rw [sourceParts_eq]
  rfl

/-- The walk of the reports passes the nodes in the order in which list items have their blocks
first. -/
theorem nodes_sourceParts_blocksFirst (n : Node) :
    nodes (sourceParts .blocksFirst (.node n)) = walk n := by
  induction n using walk_induction with
  | step n ih =>
      have hparts (parts : List Segment) (h : ∀ m ∈ nodes parts,
          nodes (sourceParts .blocksFirst (.node m)) = walk m) :
          nodes (parts.flatMap (sourceParts .blocksFirst)) = (nodes parts).flatMap walk := by
        induction parts with
        | nil => rfl
        | cons part rest ihrest =>
            rw [List.flatMap_cons, nodes, List.filterMap_append]
            cases part with
            | text s =>
                rw [sourceParts_text]
                exact ihrest h
            | node m =>
                rw [Segment.nodes_node, List.flatMap_cons, ← h m (by simp)]
                exact congrArg _ (ihrest fun k hk => h k (by simp [hk]))
      rw [sourceParts_eq, Segment.nodes_node, walk_eq, ← nodes_segments_blocksFirst]
      exact congrArg _ (hparts _ fun m hm => ih m (nodes_segments_blocksFirst _ ▸ hm))

end Plain

end DocTree
