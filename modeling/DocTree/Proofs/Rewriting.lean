import DocTree.Proofs.Members
import DocTree.Proofs.Merged
import Mathlib.Data.List.Basic
import Mathlib.Data.List.Forall2

/-!
Rewritings of document trees. A rewriting passes through all fields of a node and then does
something to the node itself. What a conversion reads of the result is related to what it read
before: nodes are replaced by their images in the same order, and the text around them may be cut
in another way.
-/

namespace DocTree

open RichText (segmentsOf)
open Segment (nodes merge)

def Segment.mapNode (f : Node → Node) : Segment → Segment
  | .text s => .text s
  | .node n => .node (f n)

def RichText.mapNodes (f : Node → Node) : RichText → RichText
  | .plain s => .plain s
  | .segments parts => .segments (parts.map (Segment.mapNode f))

/-- A node with the nodes in its fields replaced, the items of a list in a way of their own. -/
def Node.mapNodes (onNode onItem : Node → Node) (n : Node) : Node where
  props := n.props
  title := n.title.map (RichText.mapNodes onNode)
  content := n.content.map (RichText.mapNodes onNode)
  text := n.text.map (RichText.mapNodes onNode)
  blocks := n.blocks.map (List.map onNode)
  items := n.items.map (List.map onItem)

/-- What becomes of a node, and of a node that is an item of a list. Each is given twice: as it was,
and with the nodes in its fields rewritten. -/
structure Rewriting where
  node : Node → Node → Node
  item : Node → Node → Node := node

namespace Rewriting

variable (r : Rewriting)

mutual

/-- A node with the nodes in its fields rewritten. -/
def inside : Node → Node
  | ⟨p, title, content, text, blocks, items⟩ =>
    ⟨p, insideContent title, insideContent content, insideContent text,
      insideNodes? r.node blocks, insideNodes? r.item items⟩
termination_by structural n => n

def insideContent (content : Option RichText) : Option RichText :=
  match content with
  | none => none
  | some t => some (insideRich t)
termination_by structural content

def insideRich : RichText → RichText
  | .plain s => .plain s
  | .segments parts => .segments (insideParts parts)
termination_by structural t => t

def insideParts : List Segment → List Segment
  | [] => []
  | part :: rest => insidePart part :: insideParts rest
termination_by structural parts => parts

def insidePart : Segment → Segment
  | .text s => .text s
  | .node n => .node (r.node n (inside n))
termination_by structural part => part

def insideNodes? (step : Node → Node → Node) (ns : Option (List Node)) : Option (List Node) :=
  match ns with
  | none => none
  | some ns => some (insideNodes step ns)
termination_by structural ns

def insideNodes (step : Node → Node → Node) (ns : List Node) : List Node :=
  match ns with
  | [] => []
  | n :: rest => step n (inside n) :: insideNodes step rest
termination_by structural ns

end

def apply (n : Node) : Node := r.node n (r.inside n)

def applyItem (n : Node) : Node := r.item n (r.inside n)

theorem insideContent_eq (content : Option RichText) :
    r.insideContent content = content.map (RichText.mapNodes r.apply) := by
  have hparts (parts : List Segment) :
      r.insideParts parts = parts.map (Segment.mapNode r.apply) := by
    induction parts with
    | nil => rfl
    | cons part rest ih => cases part <;> simp [insideParts, insidePart, Segment.mapNode, apply, ih]
  cases content with
  | none => rfl
  | some t =>
      cases t with
      | plain s => rfl
      | segments parts => simp [insideContent, insideRich, RichText.mapNodes, hparts]

theorem insideNodes?_eq (step : Node → Node → Node) (ns : Option (List Node)) :
    r.insideNodes? step ns = ns.map (List.map fun n => step n (r.inside n)) := by
  have hnodes (ns : List Node) :
      r.insideNodes step ns = ns.map fun n => step n (r.inside n) := by
    induction ns with
    | nil => rfl
    | cons n ns ih => rw [insideNodes, ih, List.map_cons]
  cases ns with
  | none => rfl
  | some ns => rw [insideNodes?, hnodes, Option.map_some]

theorem inside_eq (n : Node) : r.inside n = n.mapNodes r.apply r.applyItem := by
  obtain ⟨p, title, content, text, blocks, items⟩ := n
  simp only [inside, insideContent_eq, insideNodes?_eq]
  rfl

theorem apply_eq (n : Node) : r.apply n = r.node n (n.mapNodes r.apply r.applyItem) := by
  rw [apply, inside_eq]

theorem applyItem_eq (n : Node) :
    r.applyItem n = r.item n (n.mapNodes r.apply r.applyItem) := by
  rw [applyItem, inside_eq]

end Rewriting

variable {f : Node → Node}

namespace Segment

/-- The second segments are the first with the nodes among them replaced, texts being joined. -/
def Mapped (f : Node → Node) (parts parts' : List Segment) : Prop :=
  merge parts' = (merge parts).map (mapNode f)

theorem merge_map (f : Node → Node) (parts : List Segment) :
    merge (parts.map (mapNode f)) = (merge parts).map (mapNode f) := by
  induction parts with
  | nil => rfl
  | cons part rest ih =>
      cases part with
      | node n => simp only [List.map_cons, mapNode, merge, ih]
      | text s =>
          simp only [List.map_cons, mapNode, merge, ih]
          cases merge rest with
          | nil => rfl
          | cons next more => cases next <;> rfl

@[simp] theorem nodes_map (f : Node → Node) (parts : List Segment) :
    nodes (parts.map (mapNode f)) = (nodes parts).map f := by
  induction parts with
  | nil => rfl
  | cons part rest ih => cases part <;> simp [mapNode, ih]

theorem Mapped.nodes_eq {parts parts' : List Segment} (h : Mapped f parts parts') :
    nodes parts' = (nodes parts).map f := by
  rw [← nodes_merge, h, nodes_map, nodes_merge]

theorem mapped_id (parts : List Segment) : Mapped id parts parts := by
  have hid : mapNode id = id := by
    funext part
    cases part <;> rfl
  rw [Mapped, hid, List.map_id]

theorem mapped_blocks (ns : List Node) : Mapped f (ns.map .node) ((ns.map f).map .node) := by
  rw [Mapped, merge_map_node, merge_map_node, List.map_map, List.map_map]
  rfl

/-- The records of the nodes determine the value of inline content, however its text is cut. -/
theorem inlineValue_mapped {keys : List String} {record record' : Node → Json.Members}
    {parts parts' : List Segment} (h : Mapped f parts parts')
    (hrecord : ∀ n ∈ nodes parts, record' (f n) = Json.withoutMembers keys (record n)) :
    inlineValue record' parts' = (inlineValue record parts).without keys := by
  have hvalue : ∀ part ∈ merge parts,
      value record' (mapNode f part) = (value record part).without keys := by
    intro part hpart
    cases part with
    | text s => rfl
    | node n =>
        rw [← mem_nodes, nodes_merge] at hpart
        exact congrArg Json.obj (hrecord n hpart)
  rw [inlineValue, inlineValue, h]
  have hvalues : (merge parts).map (value record' ∘ mapNode f) =
      (merge parts).map (Json.without keys ∘ value record) := List.map_congr_left hvalue
  cases hm : merge parts with
  | nil => rfl
  | cons part rest =>
      cases rest with
      | nil => exact hvalue part (by simp [hm])
      | cons next rest =>
          rw [hm, ← List.map_map, ← List.map_map, ← Json.withoutItems_eq] at hvalues
          exact congrArg Json.arr hvalues

end Segment

namespace RichText

def Mapped (f : Node → Node) (t t' : RichText) : Prop :=
  Segment.Mapped f t.toSegments t'.toSegments

theorem toSegments_mapNodes (t : RichText) :
    (t.mapNodes f).toSegments = t.toSegments.map (Segment.mapNode f) := by
  cases t <;> rfl

theorem mapped_mapNodes (content : Option RichText) :
    Option.Rel (Mapped f) content (content.map (mapNodes f)) := by
  cases content with
  | none => exact .none
  | some t =>
      refine .some ?_
      rw [Mapped, toSegments_mapNodes]
      exact Segment.merge_map f t.toSegments

theorem mapped_segmentsOf {content content' : Option RichText}
    (h : Option.Rel (Mapped f) content content') :
    Segment.Mapped f (segmentsOf content) (segmentsOf content') := by
  cases h with
  | none => rfl
  | some h => exact h

end RichText

namespace Node

structure ItemMapped (f : Node → Node) (item item' : Node) : Prop where
  text : Option.Rel (RichText.Mapped f) item.text item'.text
  blocks : item'.blocks.getD [] = (item.blocks.getD []).map f

theorem mapped_items {g : Node → Node} (h : ∀ item, ItemMapped f item (g item))
    (items : Option (List Node)) :
    List.Forall₂ (ItemMapped f) (items.getD []) ((items.map (List.map g)).getD []) := by
  cases items with
  | none => exact .nil
  | some ns =>
      rw [Option.map_some, Option.getD_some, Option.getD_some, List.forall₂_map_right_iff,
        List.forall₂_same]
      exact fun item _ => h item

inductive Body.Mapped (f : Node → Node) : Body → Body → Prop
  | nothing : Mapped f .nothing .nothing
  | flow {parts parts' : List Segment} (h : Segment.Mapped f parts parts') :
      Mapped f (.flow parts) (.flow parts')
  | titled {title title' parts parts' : List Segment} (htitle : Segment.Mapped f title title')
      (hparts : Segment.Mapped f parts parts') :
      Mapped f (.titled title parts) (.titled title' parts')
  | list {items items' : List Node} (h : List.Forall₂ (ItemMapped f) items items') :
      Mapped f (.list items) (.list items')
  | code {parts parts' : List Segment} (h : Segment.Mapped f parts parts') :
      Mapped f (.code parts) (.code parts')

theorem Body.mapped_id (b : Body) : Mapped id b b := by
  cases b with
  | nothing => exact .nothing
  | flow parts => exact .flow (Segment.mapped_id parts)
  | titled title parts => exact .titled (Segment.mapped_id title) (Segment.mapped_id parts)
  | code parts => exact .code (Segment.mapped_id parts)
  | list items =>
      refine .list (List.forall₂_same.mpr fun item _ => ⟨?_, (List.map_id _).symm⟩)
      cases item.text with
      | none => exact .none
      | some t => exact .some (Segment.mapped_id t.toSegments)

theorem visited_item_mapped {item item' : Node} (h : ItemMapped f item item') :
    nodes (segmentsOf item'.text) = (nodes (segmentsOf item.text)).map f ∧
      item'.blocks.getD [] = (item.blocks.getD []).map f :=
  ⟨(RichText.mapped_segmentsOf h.text).nodes_eq, h.blocks⟩

theorem Body.visited_mapped {b b' : Body} (h : Mapped f b b') :
    b'.visited = b.visited.map f := by
  cases h with
  | nothing => rfl
  | flow h | code h => exact h.nodes_eq
  | titled htitle hparts => simp only [visited, htitle.nodes_eq, hparts.nodes_eq, List.map_append]
  | list h =>
      simp only [visited]
      induction h with
      | nil => rfl
      | cons hitem _ ih =>
          obtain ⟨htext, hblocks⟩ := visited_item_mapped hitem
          simp only [List.flatMap_cons, List.map_append, ih, htext, hblocks]

/-- A node all of whose fields are mapped. The title counts in sections only. -/
structure FieldsMapped (f : Node → Node) (n n' : Node) : Prop where
  title : n.props.kind = .section → Option.Rel (RichText.Mapped f) n.title n'.title
  content : Option.Rel (RichText.Mapped f) n.content n'.content
  text : Option.Rel (RichText.Mapped f) n.text n'.text
  blocks : n'.blocks = n.blocks.map (List.map f)
  items : List.Forall₂ (ItemMapped f) (n.items.getD []) (n'.items.getD [])

theorem fieldsMapped_mapNodes {g : Node → Node} (h : ∀ item, ItemMapped f item (g item))
    (n : Node) : FieldsMapped f n (n.mapNodes f g) where
  title _ := RichText.mapped_mapNodes n.title
  content := RichText.mapped_mapNodes n.content
  text := RichText.mapped_mapNodes n.text
  blocks := rfl
  items := mapped_items h n.items

theorem itemMapped_mapNodes (g : Node → Node) (item : Node) :
    ItemMapped f item (item.mapNodes f g) where
  text := RichText.mapped_mapNodes item.text
  blocks := by
    rw [mapNodes]
    cases item.blocks <;> rfl

end Node

/-- A rewriting whose steps change none of the fields that hold nodes, items being nodes like all
others. The title counts in sections only. -/
structure Rewriting.KeepsFields (r : Rewriting) : Prop where
  item : r.item = r.node
  title : ∀ n m, m.props.kind = .section → (r.node n m).title = m.title
  content : ∀ n m, (r.node n m).content = m.content
  text : ∀ n m, (r.node n m).text = m.text
  blocks : ∀ n m, (r.node n m).blocks = m.blocks
  items : ∀ n m, (r.node n m).items = m.items

namespace Node

theorem fieldsMapped_apply {r : Rewriting} (h : r.KeepsFields) (n : Node) :
    FieldsMapped r.apply n (r.apply n) := by
  have hitem (item : Node) : ItemMapped r.apply item (r.applyItem item) := by
    obtain ⟨htext, hblocks⟩ := itemMapped_mapNodes (f := r.apply) r.applyItem item
    rw [r.applyItem_eq, h.item]
    exact ⟨by rwa [h.text], by rwa [h.blocks]⟩
  obtain ⟨htitle, hcontent, htext, hblocks, hitems⟩ := fieldsMapped_mapNodes hitem n
  rw [r.apply_eq]
  exact {
    title := fun hk => by
      rw [h.title n (n.mapNodes r.apply r.applyItem) hk]
      exact htitle hk
    content := by rwa [h.content]
    text := by rwa [h.text]
    blocks := by rwa [h.blocks]
    items := by rwa [h.items] }

theorem FieldsMapped.body {n n' : Node} (h : FieldsMapped f n n')
    (hkind : n'.props.kind = n.props.kind)
    (hcode : n'.props.subType = some "monospaced" ↔ n.props.subType = some "monospaced") :
    Body.Mapped f n.body n'.body := by
  have hblocks :
      Segment.Mapped f ((n.blocks.getD []).map .node) ((n'.blocks.getD []).map .node) := by
    rw [h.blocks]
    cases n.blocks with
    | none => rfl
    | some ns => exact Segment.mapped_blocks ns
  cases hk : n.props.kind with
  | document | preamble | other =>
      simp only [Node.body, hkind, hk]
      cases hb : n.blocks with
      | some ns =>
          simp only [h.blocks, hb, Option.map_some]
          exact .flow (Segment.mapped_blocks ns)
      | none =>
          simp only [h.blocks, hb, Option.map_none]
          have hcontent := h.content
          generalize n.content = content, n'.content = content' at hcontent
          cases hcontent with
          | none => exact .nothing
          | some ht => exact .flow ht
  | «section» =>
      simp only [Node.body, hkind, hk]
      exact .titled (RichText.mapped_segmentsOf (h.title hk)) hblocks
  | paragraph =>
      simp only [Node.body, hkind, hk]
      exact .flow (RichText.mapped_segmentsOf h.content)
  | unorderedList =>
      simp only [Node.body, hkind, hk]
      exact .list h.items
  | inlineQuoted =>
      simp only [Node.body, hkind, hk, hcode]
      split
      · exact .code (RichText.mapped_segmentsOf h.text)
      · exact .flow (RichText.mapped_segmentsOf h.text)
  | inlineAnchor =>
      simp only [Node.body, hkind, hk]
      exact .flow (RichText.mapped_segmentsOf h.text)
  | inlineImage | image =>
      simp only [Node.body, hkind, hk]
      exact .nothing

end Node

theorem Descent.preorder_map {α : Type} (d : Descent α) {f : α → α}
    (h : ∀ a, d.next (f a) = (d.next a).map f) (a : α) :
    d.preorder (f a) = (d.preorder a).map f := by
  induction a using d.induction with
  | step a ih =>
      rw [d.preorder_eq, d.preorder_eq, h, List.flatMap_map, List.map_cons, List.map_flatMap]
      exact congrArg _ (List.flatMap_congr ih)

theorem Node.walk_mapped (h : ∀ n : Node, Body.Mapped f n.body (f n).body) (n : Node) :
    (f n).walk = n.walk.map f := by
  refine descent.preorder_map (fun n => ?_) n
  change (f n).visited = n.visited.map f
  rw [visited_eq, visited_eq, Body.visited_mapped (h n)]

end DocTree
