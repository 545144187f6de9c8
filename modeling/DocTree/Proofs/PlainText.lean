import DocTree.Proofs.Rewriting

/-!
The plain text of inline content. It is the text of the segments, whose nodes have the text of
their `text`, or else of their `content`; how the text is cut does not show in it.
-/

namespace DocTree

open RichText (segmentsOf)
open Segment (nodes merge mapNode plainTexts)

theorem RichText.plainText_eq (t : RichText) : t.plainText = plainTexts t.toSegments := by
  cases t with
  | plain s => simp [plainText, toSegments, plainTexts]
  | segments parts => rfl

theorem Node.plainText_eq (n : Node) :
    n.plainText = plainTexts (segmentsOf (n.text.or n.content)) := by
  obtain ⟨_, _, content, text, _, _⟩ := n
  cases text with
  | some t => exact t.plainText_eq
  | none =>
      cases content with
      | some t => exact t.plainText_eq
      | none => rfl

theorem Segment.plainTexts_merge (parts : List Segment) :
    plainTexts (merge parts) = plainTexts parts := by
  induction parts with
  | nil => rfl
  | cons part rest ih =>
      cases part with
      | node n => simp only [merge, plainTexts, ih]
      | text s =>
          simp only [merge, plainTexts, ← ih]
          cases merge rest with
          | nil => rfl
          | cons next more =>
              cases next with
              | node n => rfl
              | text t => simp only [plainTexts, String.append_assoc]

variable {f : Node → Node}

theorem Segment.plainTexts_mapped {parts parts' : List Segment} (h : Mapped f parts parts')
    (hnodes : ∀ n ∈ nodes parts, (f n).plainText = n.plainText) :
    plainTexts parts' = plainTexts parts := by
  rw [← nodes_merge] at hnodes
  rw [← plainTexts_merge parts', h, ← plainTexts_merge parts]
  generalize merge parts = merged at hnodes
  induction merged with
  | nil => rfl
  | cons part rest ih =>
      cases part with
      | text s => simp only [List.map_cons, mapNode, plainTexts, ih hnodes]
      | node n =>
          rw [nodes_node, List.forall_mem_cons] at hnodes
          simp only [List.map_cons, mapNode, plainTexts, hnodes.1, ih hnodes.2]

/-- The nodes whose text is part of the plain text of a node. -/
def Node.textDescent : Descent Node where
  next n := nodes (segmentsOf (n.text.or n.content))
  wellFounded := Descent.wellFounded_of_sizeOf_lt fun n m hm => by
    have hlt := sizeOf_lt_of_mem_content (n.text.or n.content) hm
    obtain ⟨_, _, content, text, _, _⟩ := n
    simp only [Node.mk.sizeOf_spec]
    cases text <;> simp only [Option.some_or, Option.none_or] at hlt <;> omega

theorem Node.plainText_mapped (h : ∀ n : Node, FieldsMapped f n (f n)) (n : Node) :
    (f n).plainText = n.plainText := by
  induction n using textDescent.induction with
  | step n ih =>
      have hor : Option.Rel (RichText.Mapped f) (n.text.or n.content)
          ((f n).text.or (f n).content) := by
        obtain ⟨-, hcontent, htext, -, -⟩ := h n
        generalize n.text = text, (f n).text = text' at htext
        cases htext with
        | none => exact hcontent
        | some ht => exact .some ht
      rw [plainText_eq, plainText_eq]
      exact Segment.plainTexts_mapped (RichText.mapped_segmentsOf hor) ih

theorem RichText.plainText_mapped (h : ∀ n : Node, Node.FieldsMapped f n (f n))
    {content content' : Option RichText}
    (hcontent : Option.Rel (RichText.Mapped f) content content') :
    content'.map plainText = content.map plainText := by
  cases hcontent with
  | none => rfl
  | some ht =>
      have htexts := Segment.plainTexts_mapped ht fun n _ => Node.plainText_mapped h n
      rw [Option.map_some, Option.map_some, plainText_eq, plainText_eq, htexts]

end DocTree
