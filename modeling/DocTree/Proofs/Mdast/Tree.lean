import DocTree.Proofs.Mdast.Children
import Mathlib.Data.List.Basic

/-!
Descent in converted trees. Below a node are its children, and for each of its items the nodes in
the text of the item and then the blocks of the item.
-/

namespace DocTree.Mdast

open Json (lookup_cons)
open RichText (segmentsOf)
open Segment (nodes)

/-- The elements of an array; any other value is its own only element. -/
def elements : Json → List Json
  | .arr vs => vs
  | v => [v]

/-- The elements of the value under a key, if there is one. -/
def under (key : String) : Json → List Json
  | .obj members => (members.lookup key).elim [] elements
  | _ => []

def isObject : Json → Bool
  | .obj _ => true
  | _ => false

/-- The nodes directly below a node of a converted tree, in order. -/
def below (v : Json) : List Json :=
  under "children" v ++ (under "items" v).flatMap fun item =>
    (under "text" item).filter isObject ++ under "blocks" item

theorem sizeOf_lt_of_lookup {key : String} {members : Json.Members} {v : Json}
    (h : members.lookup key = some v) : sizeOf v < sizeOf members := by
  induction members with
  | nil => cases h
  | cons m rest ih =>
      obtain ⟨k, w⟩ := m
      rw [lookup_cons] at h
      simp only [List.cons.sizeOf_spec, Prod.mk.sizeOf_spec]
      split at h
      · cases h
        omega
      · have := ih h
        omega

theorem sizeOf_le_of_mem_elements {v w : Json} (h : w ∈ elements v) : sizeOf w ≤ sizeOf v := by
  cases v with
  | arr vs =>
      have := List.sizeOf_lt_of_mem (show w ∈ vs from h)
      simp only [Json.arr.sizeOf_spec]
      omega
  | obj _ | null | bool _ | num _ | str _ => exact Nat.le_of_eq (by rw [List.mem_singleton.mp h])

theorem sizeOf_lt_of_mem_under {key : String} {v w : Json} (h : w ∈ under key v) :
    sizeOf w < sizeOf v := by
  cases v with
  | obj members =>
      rw [under] at h
      cases hv : members.lookup key with
      | none =>
          rw [hv] at h
          cases h
      | some u =>
          rw [hv] at h
          have hle := sizeOf_le_of_mem_elements h
          have hlt := sizeOf_lt_of_lookup hv
          simp only [Json.obj.sizeOf_spec]
          omega
  | arr _ | null | bool _ | num _ | str _ => cases h

theorem sizeOf_lt_of_mem_below (v : Json) : ∀ w ∈ below v, sizeOf w < sizeOf v := by
  intro w hw
  simp only [below, List.mem_append, List.mem_flatMap, List.mem_filter] at hw
  rcases hw with hw | ⟨item, hitem, ⟨hw, _⟩ | hw⟩
  · exact sizeOf_lt_of_mem_under hw
  · exact Nat.lt_trans (sizeOf_lt_of_mem_under hw) (sizeOf_lt_of_mem_under hitem)
  · exact Nat.lt_trans (sizeOf_lt_of_mem_under hw) (sizeOf_lt_of_mem_under hitem)

def treeDescent : Descent Json where
  next := below
  wellFounded := Descent.wellFounded_of_sizeOf_lt sizeOf_lt_of_mem_below

def treeNodes (v : Json) : List Json := treeDescent.preorder v

theorem treeNodes_eq (v : Json) : treeNodes v = v :: (below v).flatMap treeNodes :=
  treeDescent.preorder_eq v

theorem treeNodes_textNode (s : String) : treeNodes (textNode s) = [textNode s] := by
  rw [treeNodes_eq]
  rfl

theorem below_heading (p : Properties) (vs : List Json) : below (heading p vs) = vs :=
  List.append_nil vs

theorem filter_elements_inlineValue (o : Options) (parts : List Segment) :
    (elements (inlineValue o parts)).filter isObject =
      (nodes parts).map fun n => .obj (record o n) := by
  have hparts (ps : List Segment) : (ps.map (segmentValue o)).filter isObject =
      (nodes ps).map fun n => .obj (record o n) := by
    induction ps with
    | nil => rfl
    | cons p ps ih =>
        cases p with
        | text s => exact ih
        | node n => exact congrArg (Json.obj (record o n) :: ·) ih
  rw [← Segment.nodes_merge, ← hparts, inlineValue]
  split
  · next part h =>
      rw [h]
      cases part <;> rfl
  · rfl

theorem below_item (o : Options) (n : Node) :
    (under "text" (item o n)).filter isObject ++ under "blocks" (item o n) =
      (nodes (segmentsOf n.text) ++ n.blocks.getD []).map fun m => .obj (record o m) := by
  rw [List.map_append]
  cases ht : n.text with
  | none =>
      simp only [item, ht]
      rfl
  | some t =>
      rw [segmentsOf, Option.elim_some, ← filter_elements_inlineValue]
      simp only [item, ht]
      rfl

/-- Below the record of a node are its children, or the nodes of its items. -/
theorem below_record (o : Options) (n : Node) :
    below (.obj (record o n)) =
      match n.body with
      | .list items => (Node.Body.list items).visited.map fun m => .obj (record o m)
      | .flow _ | .titled _ _ | .nothing | .code _ => children o n := by
  simp only [below, under]
  rw [lookup_record o n (by decide) (by decide), lookup_record o n (by decide) (by decide)]
  simp only [payload, children]
  cases n.body with
  | nothing | code _ => rfl
  | flow _ | titled _ _ => exact List.append_nil _
  | list items =>
      have hitems : (items.map (item o)).flatMap (fun i =>
          (under "text" i).filter isObject ++ under "blocks" i) =
          (Node.Body.list items).visited.map fun m => .obj (record o m) := by
        rw [List.flatMap_map, Node.Body.visited, List.map_flatMap]
        exact List.flatMap_congr fun i _ => below_item o i
      exact hitems

theorem mem_below_of_mem_children {o : Options} {n : Node} {v : Json} (h : v ∈ children o n) :
    v ∈ below (.obj (record o n)) := by
  rw [below_record]
  cases hb : n.body with
  | list items =>
      simp only [children, hb] at h
      cases h
  | nothing | flow _ | titled _ _ | code _ => exact h

/-- The nodes that converted trees are made of. -/
inductive Piece (o : Options) : Json → Prop where
  | text (s : String) : Piece o (textNode s)
  | heading (p : Properties) (parts : List Segment) : Piece o (heading p (childNodes o parts))
  | record (n : Node) : Piece o (.obj (record o n))

/-- A `block` that is opened leaves its children, which are made of pieces where it is. -/
theorem pieces_of_childNodes {o : Options} {parts : List Segment}
    (h : ∀ m ∈ nodes parts, ∀ v ∈ treeNodes (.obj (record o m)), Piece o v) :
    ∀ w ∈ childNodes o parts, ∀ v ∈ treeNodes w, Piece o v := by
  intro w hw v hv
  rcases mem_childNodes hw with ⟨s, rfl⟩ | ⟨m, hm, hw⟩
  · rw [treeNodes_textNode, List.mem_singleton] at hv
    exact hv ▸ .text s
  · rw [segmentNodes_node, opened] at hw
    split at hw
    · exact h m hm v (treeDescent.mem_preorder_of_mem_next (mem_below_of_mem_children hw) hv)
    · rw [List.mem_singleton.mp hw] at hv
      exact h m hm v hv

theorem piece_of_mem_treeNodes (o : Options) (n : Node) :
    ∀ v ∈ treeNodes (.obj (record o n)), Piece o v := by
  induction n using Node.walk_induction with
  | step n ih =>
      -- What is below the record comes from the nodes of the body, of which `ih` knows it, but for
      -- text and the heading of a section.
      refine treeDescent.forall_mem_preorder (.record n) fun w (hw : w ∈ below _) => ?_
      rw [below_record] at hw
      cases hb : n.body with
      | nothing | code _ =>
          simp only [hb, children] at hw
          cases hw
      | flow parts =>
          rw [hb] at ih
          simp only [hb, children] at hw
          exact pieces_of_childNodes ih w hw
      | titled title parts =>
          rw [hb] at ih
          simp only [hb, children, List.mem_cons] at hw
          rcases hw with rfl | hw
          · have htitle := pieces_of_childNodes fun m hm => ih m (List.mem_append_left _ hm)
            refine treeDescent.forall_mem_preorder (.heading n.props title) ?_
            rwa [← below_heading n.props (childNodes o title)] at htitle
          · exact pieces_of_childNodes (fun m hm => ih m (List.mem_append_right _ hm)) w hw
      | list items =>
          rw [hb] at ih
          simp only [hb] at hw
          obtain ⟨m, hm, rfl⟩ := List.mem_map.mp hw
          exact ih m hm

end DocTree.Mdast
