import DocTree.Proofs.Plain.Events
import DocTree.Proofs.Rewriting

/-!
Conversions of rewritten trees to the plain tree. A rewriting that keeps what a record tells about
the node itself, and maps its body, changes neither the tree nor the reports.
-/

namespace DocTree.Plain

open RichText (segmentsOf)
open Segment (nodes inlineValue)
open Node (ItemMapped FieldsMapped)

variable {f : Node → Node}

inductive Body.Mapped (f : Node → Node) : Body → Body → Prop
  | nothing : Mapped f .nothing .nothing
  | blocks (ns : List Node) : Mapped f (.blocks ns) (.blocks (ns.map f))
  | inline (key : String) {parts parts' : List Segment} (h : Segment.Mapped f parts parts') :
      Mapped f (.inline key parts) (.inline key parts')
  | list {items items' : List Node} (h : List.Forall₂ (ItemMapped f) items items') :
      Mapped f (.list items) (.list items')

theorem body_mapped {n n' : Node} (h : FieldsMapped f n n')
    (hkind : n'.props.kind = n.props.kind) : Body.Mapped f (body n) (body n') := by
  cases hk : n.props.kind with
  | paragraph =>
      simp only [body, hkind, hk]
      exact .inline "text" (RichText.mapped_segmentsOf h.content)
  | unorderedList =>
      simp only [body, hkind, hk]
      exact .list h.items
  | inlineQuoted =>
      simp only [body, hkind, hk]
      exact .inline "text" (RichText.mapped_segmentsOf h.text)
  | document | preamble | «section» | inlineAnchor | inlineImage | image | other =>
      simp only [body, hkind, hk, h.blocks]
      cases n.blocks with
      | some ns => exact .blocks ns
      | none =>
          have hcontent := h.content
          generalize n.content = content, n'.content = content' at hcontent
          cases hcontent with
          | none => exact .nothing
          | some ht => exact .inline "content" ht

theorem Body.visited_mapped {b b' : Body} (h : Mapped f b b') :
    b'.visited = b.visited.map f := by
  cases h with
  | nothing => rfl
  | blocks ns => rfl
  | inline key h => exact h.nodes_eq
  | list h =>
      simp only [visited]
      induction h with
      | nil => rfl
      | cons hitem _ ih =>
          obtain ⟨htext, hblocks⟩ := Node.visited_item_mapped hitem
          simp only [List.flatMap_cons, List.map_append, ih, htext, hblocks]

section record

variable {parts parts' : List Segment}

theorem inlineValue_mapped (hparts : Segment.Mapped f parts parts')
    (hrecord : ∀ n ∈ nodes parts, record (f n) = record n) :
    inlineValue record parts' = inlineValue record parts := by
  have h : inlineValue record parts' = (inlineValue record parts).without [] := by
    refine Segment.inlineValue_mapped hparts fun n hn => ?_
    rw [hrecord n hn, Json.withoutMembers_nil]
  rwa [Json.without_nil] at h

theorem blocks_mapped {ns : List Node} (hrecord : ∀ n ∈ ns, record (f n) = record n) :
    (ns.map f).map (fun b => Json.obj (record b)) = ns.map fun b => Json.obj (record b) := by
  rw [List.map_map]
  exact List.map_congr_left fun n hn => congrArg Json.obj (hrecord n hn)

theorem items_mapped {items items' : List Node} (hitems : List.Forall₂ (ItemMapped f) items items')
    (hrecord : ∀ m ∈ (Body.list items).visited, record (f m) = record m) :
    items'.map item = items.map item := by
  induction hitems with
  | nil => rfl
  | cons hitem _ ih =>
      rw [Body.visited, List.flatMap_cons, List.forall_mem_append,
        List.forall_mem_append] at hrecord
      obtain ⟨⟨hblocks, htext⟩, hrest⟩ := hrecord
      rw [List.map_cons, List.map_cons, ih hrest, item, item, hitem.blocks, blocks_mapped hblocks,
        inlineValue_mapped (RichText.mapped_segmentsOf hitem.text) htext]

theorem payload_mapped {n : Node} (hbody : Body.Mapped f (body n) (body (f n)))
    (hrecord : ∀ m ∈ (body n).visited, record (f m) = record m) :
    payload (f n) = payload n := by
  rw [payload, payload]
  generalize body n = b, body (f n) = b' at hbody hrecord
  cases hbody with
  | nothing => rfl
  | blocks ns => exact congrArg (fun vs => [("blocks", Json.arr vs)]) (blocks_mapped hrecord)
  | inline key h => simp only [inlineValue_mapped h hrecord]
  | list h => simp only [items_mapped h hrecord]

end record

/-- A rewriting that keeps of every node what is told about it, and maps its body, does not show. -/
theorem conversion_mapped (hleading : ∀ n, leading (f n) = leading n)
    (hprops : ∀ n, (f n).props = n.props) (hbody : ∀ n, Body.Mapped f (body n) (body (f n)))
    (n : Node) : conversion (f n) = conversion n := by
  have hrecord : record (f n) = record n := by
    induction n using walk_induction with
    | step n ih => rw [record_eq, record_eq, hleading, hprops, payload_mapped (hbody n) ih]
  have hwalk : walk (f n) = (walk n).map f :=
    descent.preorder_map (fun n => Body.visited_mapped (hbody n)) n
  have hreports (n : Node) : reports (f n) = reports n := by
    rw [reports, reports, unknown?, unknown?, hprops]
  have hevents : (convert (f n)).events = (convert n).events := by
    simp only [events_eq_walk, hwalk, List.flatMap_map, hreports]
  rw [conversion, conversion, Conversion.ofTraced, Conversion.ofTraced, Traced.events_map,
    Traced.events_map, hevents, Traced.value_map, Traced.value_map]
  exact congrArg (fun members => Conversion.mk (.obj members) _) hrecord

end DocTree.Plain
