import DocTree.Proofs.Mdast.Grammar
import DocTree.Proofs.Mdast.Tree

/-!
Converted trees follow the grammar of converted nodes at every depth, whatever names and texts come
with the source.
-/

namespace DocTree.Mdast

/-- A value that follows the grammar, what is below it aside. -/
def IsNode (flat : Bool) (v : Json) : Prop :=
  ∃ type rest, v = .obj (("type", .str type) :: rest) ∧ Conforms flat type rest

/-- A value that follows the grammar together with all that is below it. -/
def IsTree (flat : Bool) (v : Json) : Prop := ∀ w ∈ treeNodes v, IsNode flat w

theorem settled_of_mem_childNodes (o : Options) (parts : List Segment) :
    ∀ v ∈ childNodes o parts, Settled o.flat v :=
  settled_childNodes fun m _ => settled_children o m

theorem Piece.isNode {o : Options} {v : Json} (h : Piece o v) : IsNode o.flat v := by
  cases h with
  | text s => exact ⟨"text", _, rfl, conforms_text o.flat s⟩
  | heading p parts =>
      refine ⟨"heading", _, rfl, conforms_heading (headingDepth p.level) ?_⟩
      exact settled_of_mem_childNodes o parts
  | record n => exact ⟨_, _, congrArg Json.obj (record_eq o n), conforms_record o n⟩

theorem isTree_record (o : Options) (n : Node) : IsTree o.flat (.obj (record o n)) := by
  intro v hv
  exact (piece_of_mem_treeNodes o n v hv).isNode

/-- Converted trees follow the grammar at every depth; in flat ones no `block` is among children. -/
theorem isTree_conversion (o : Options) (n : Node) : IsTree o.flat (conversion o n).tree :=
  isTree_record o n

end DocTree.Mdast
