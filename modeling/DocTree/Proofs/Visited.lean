import DocTree.Source.Kind
import DocTree.Proofs.Preorder

/-!
The nodes that a conversion to Mdast visits. Which fields of a node are read depends on its kind
alone: blocks take the place of content in nodes of a general kind, a section has its title before
its blocks, and the items of a list are passed through without being visited themselves.
-/

namespace DocTree

open RichText (segmentsOf)

namespace Segment

def node? : Segment → Option Node
  | .text _ => none
  | .node n => some n

def nodes (parts : List Segment) : List Node := parts.filterMap node?

@[simp] theorem nodes_nil : nodes [] = [] := rfl

@[simp] theorem nodes_text (s : String) (rest : List Segment) :
    nodes (.text s :: rest) = nodes rest := rfl

@[simp] theorem nodes_node (n : Node) (rest : List Segment) :
    nodes (.node n :: rest) = n :: nodes rest := rfl

@[simp] theorem nodes_map_node (ns : List Node) : nodes (ns.map .node) = ns := by
  induction ns with
  | nil => rfl
  | cons n ns ih => rw [List.map_cons, nodes_node, ih]

theorem mem_nodes {n : Node} {parts : List Segment} : n ∈ nodes parts ↔ .node n ∈ parts := by
  induction parts with
  | nil => simp
  | cons part rest ih => cases part <;> simp [ih]

end Segment

open Segment (nodes)

namespace Node

/-- The nodes that the conversion of a node goes on to, in order. -/
def visited (n : Node) : List Node :=
  match n.props.kind with
  | .document | .preamble | .other => n.blocks.getD (nodes (segmentsOf n.content))
  | .section => nodes (segmentsOf n.title) ++ n.blocks.getD []
  | .paragraph => nodes (segmentsOf n.content)
  | .unorderedList =>
    (n.items.getD []).flatMap fun item => nodes (segmentsOf item.text) ++ item.blocks.getD []
  | .inlineQuoted | .inlineAnchor => nodes (segmentsOf n.text)
  | .inlineImage | .image => []

theorem sizeOf_lt_of_mem_content {n : Node} (content : Option RichText)
    (h : n ∈ nodes (segmentsOf content)) : sizeOf n < sizeOf content := by
  rw [Segment.mem_nodes] at h
  cases content with
  | none => cases h
  | some t =>
      cases t with
      | plain s => cases h with | tail _ h => cases h
      | segments parts =>
          have hlt := List.sizeOf_lt_of_mem (show .node n ∈ parts from h)
          simp only [Segment.node.sizeOf_spec] at hlt
          simp only [Option.some.sizeOf_spec, RichText.segments.sizeOf_spec]
          omega

theorem sizeOf_lt_of_mem_blocks {n : Node} (blocks : Option (List Node))
    (h : n ∈ blocks.getD []) : sizeOf n < sizeOf blocks := by
  cases blocks with
  | none => cases h
  | some ns =>
      have := List.sizeOf_lt_of_mem (show n ∈ ns from h)
      simp only [Option.some.sizeOf_spec]
      omega

theorem sizeOf_lt_of_mem_visited (n : Node) : ∀ m ∈ n.visited, sizeOf m < sizeOf n := by
  intro m hm
  obtain ⟨p, title, content, text, blocks, items⟩ := n
  simp only [Node.mk.sizeOf_spec]
  cases hk : p.kind with
  | document | preamble | other =>
      simp only [visited, hk] at hm
      cases blocks with
      | none =>
          have := sizeOf_lt_of_mem_content content hm
          omega
      | some ns =>
          have := sizeOf_lt_of_mem_blocks (some ns) hm
          omega
  | «section» =>
      simp only [visited, hk, List.mem_append] at hm
      rcases hm with hm | hm
      · have := sizeOf_lt_of_mem_content title hm
        omega
      · have := sizeOf_lt_of_mem_blocks blocks hm
        omega
  | paragraph | inlineQuoted | inlineAnchor =>
      simp only [visited, hk] at hm
      have := sizeOf_lt_of_mem_content _ hm
      omega
  | unorderedList =>
      simp only [visited, hk, List.mem_flatMap, List.mem_append] at hm
      obtain ⟨⟨_, _, _, itemText, itemBlocks, _⟩, hitem, hm⟩ := hm
      have hlt := sizeOf_lt_of_mem_blocks items hitem
      simp only [Node.mk.sizeOf_spec] at hlt
      rcases hm with hm | hm
      · have := sizeOf_lt_of_mem_content itemText hm
        omega
      · have := sizeOf_lt_of_mem_blocks itemBlocks hm
        omega
  | inlineImage | image =>
      simp only [visited, hk] at hm
      cases hm

def descent : Descent Node where
  next := visited
  wellFounded := Descent.wellFounded_of_sizeOf_lt sizeOf_lt_of_mem_visited

/-- All nodes that the conversion of a node visits, in order. -/
def walk (n : Node) : List Node := descent.preorder n

theorem walk_eq (n : Node) : n.walk = n :: n.visited.flatMap walk := descent.preorder_eq n

/-- What a conversion reads of a node besides its properties. Blocks are segments without text. -/
inductive Body where
  | nothing
  | flow (parts : List Segment)
  /-- A title, and what it is the title of. -/
  | titled (title parts : List Segment)
  | list (items : List Node)
  | code (parts : List Segment)

def Body.visited : Body → List Node
  | .nothing => []
  | .flow parts | .code parts => nodes parts
  | .titled title parts => nodes title ++ nodes parts
  | .list items => items.flatMap fun item => nodes (segmentsOf item.text) ++ item.blocks.getD []

def body (n : Node) : Body :=
  match n.props.kind with
  | .document | .preamble | .other =>
    match n.blocks, n.content with
    | some ns, _ => .flow (ns.map .node)
    | none, some t => .flow t.toSegments
    | none, none => .nothing
  | .section => .titled (segmentsOf n.title) ((n.blocks.getD []).map .node)
  | .paragraph => .flow (segmentsOf n.content)
  | .unorderedList => .list (n.items.getD [])
  | .inlineQuoted =>
    if n.props.subType = some "monospaced" then .code (segmentsOf n.text)
    else .flow (segmentsOf n.text)
  | .inlineAnchor => .flow (segmentsOf n.text)
  | .inlineImage | .image => .nothing

theorem quoted_of_body_code {n : Node} {parts : List Segment} (h : n.body = .code parts) :
    n.props.kind = .inlineQuoted ∧ n.props.subType = some "monospaced" := by
  cases hk : n.props.kind with
  | inlineQuoted =>
      by_cases hs : n.props.subType = some "monospaced"
      · exact ⟨rfl, hs⟩
      · simp only [body, hk, hs, ite_false] at h
        cases h
  | document | preamble | other =>
      simp only [body, hk] at h
      split at h <;> cases h
  | «section» | paragraph | inlineAnchor | unorderedList | inlineImage | image =>
      simp only [body, hk] at h
      cases h

theorem visited_eq (n : Node) : n.visited = n.body.visited := by
  cases hk : n.props.kind with
  | document | preamble | other =>
      simp only [visited, body, hk]
      cases n.blocks with
      | some ns => simp [Body.visited]
      | none => cases n.content <;> rfl
  | inlineQuoted =>
      simp only [visited, body, hk]
      split <;> rfl
  | «section» | paragraph | inlineAnchor | unorderedList | inlineImage | image =>
      simp [visited, body, hk, Body.visited]

/-- Induction along a walk: the bodies of nodes hold only nodes of which the property is known. -/
theorem walk_induction {P : Node → Prop} (step : ∀ n : Node, (∀ m ∈ n.body.visited, P m) → P n)
    (n : Node) : P n :=
  descent.induction (fun n ih => step n (n.visited_eq ▸ ih)) n

end Node

end DocTree
