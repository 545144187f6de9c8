import DocTree.Proofs.Mdast.Rewritten
import DocTree.Proofs.Plain.Rewritten
import DocTree.Proofs.PlainText

/-!
Trees that differ only in how their text is cut. Reading every text as a single segment and joining
neighbouring texts gives a tree that both conversions treat like the one it was made from, so two
trees that become the same in this way are converted alike.
-/

namespace DocTree

def RichText.joinTexts (t : RichText) : RichText := .segments (Segment.merge t.toSegments)

/-- Joins neighbouring texts in the inline content of all nodes. A single text becomes a list of
one segment, and an empty text is one like any other. -/
def joining : Rewriting where
  node _ n :=
    { n with
      title := n.title.map RichText.joinTexts
      content := n.content.map RichText.joinTexts
      text := n.text.map RichText.joinTexts }

namespace Node

def joined (n : Node) : Node := joining.apply n

/-- Two nodes that are the same once neighbouring texts are joined at every depth. -/
def TextEquivalent (m n : Node) : Prop := m.joined = n.joined

theorem joined_eq (n : Node) : n.joined = joining.node n (n.mapNodes joined joined) :=
  joining.apply_eq n

@[simp] theorem props_joined (n : Node) : n.joined.props = n.props := by
  rw [joined_eq]
  rfl

end Node

theorem RichText.mapped_joinTexts (content : Option RichText) :
    Option.Rel (Mapped Node.joined) content
      ((content.map (mapNodes Node.joined)).map joinTexts) := by
  cases content with
  | none => exact .none
  | some t =>
      refine .some ?_
      rw [Mapped, joinTexts, toSegments_mapNodes]
      change Segment.merge (Segment.merge _) = _
      rw [Segment.merge_merge, Segment.merge_map]

namespace Node

theorem fieldsMapped_joined (n : Node) : FieldsMapped joined n n.joined := by
  have hitem (item : Node) : ItemMapped joined item item.joined := by
    obtain ⟨-, hblocks⟩ := itemMapped_mapNodes (f := joined) joined item
    rw [joined_eq]
    exact ⟨RichText.mapped_joinTexts item.text, hblocks⟩
  rw [joined_eq]
  exact {
    title := fun _ => RichText.mapped_joinTexts n.title
    content := RichText.mapped_joinTexts n.content
    text := RichText.mapped_joinTexts n.text
    blocks := rfl
    items := mapped_items hitem n.items }

theorem plainText_title_joined (n : Node) :
    n.joined.title.map RichText.plainText = n.title.map RichText.plainText := by
  refine RichText.plainText_mapped fieldsMapped_joined ?_
  rw [joined_eq]
  exact RichText.mapped_joinTexts n.title

end Node

theorem Mdast.rewrites_joined (o : Options) : Rewrites [] o o Node.joined where
  spare := fun _ _ => List.not_mem_nil
  flat_eq := rfl
  typeName_eq n := by rw [Node.props_joined]
  depth_eq n _ := by rw [Node.props_joined]
  leading_eq n := by rw [Node.props_joined, Json.withoutMembers_nil]
  trailing_eq n := by
    rw [Json.withoutMembers_nil]
    simp only [trailing, details, Node.props_joined, Node.plainText_title_joined]
  body_mapped n := by
    refine n.fieldsMapped_joined.body ?_ ?_
    · rw [Node.props_joined]
    · rw [Node.props_joined]

theorem Mdast.conversion_joined (o : Options) (n : Node) :
    conversion o n.joined = conversion o n := by
  refine conversion_mapped (rewrites_joined o) (fun n => ?_) n
  simp only [Node.events, Node.unknown?, Node.recorded?, Node.props_joined]

theorem Plain.conversion_joined (n : Node) : conversion n.joined = conversion n := by
  refine conversion_mapped (fun n => ?_) Node.props_joined (fun n => ?_) n
  · simp only [leading, Node.props_joined, Node.plainText_title_joined]
  · exact body_mapped n.fieldsMapped_joined (by rw [Node.props_joined])

/-- How text is cut into segments does not show: text-equivalent nodes have the same conversions,
with the same trees, data and diagnostics. -/
theorem conversions_eq_of_textEquivalent {m n : Node} (h : m.TextEquivalent n) :
    (∀ o, Mdast.conversion o m = Mdast.conversion o n) ∧
      Plain.conversion m = Plain.conversion n := by
  refine ⟨fun o => ?_, ?_⟩
  · rw [← Mdast.conversion_joined o m, h, Mdast.conversion_joined]
  · rw [← Plain.conversion_joined m, h, Plain.conversion_joined]

/-- A section with the given title. It holds a paragraph with the given code in it, and a list whose
one item has the given text. -/
def sectionOfTexts (title code item : RichText) : Node where
  props := { nodeName := "section", level := some 1 }
  title := some title
  blocks := some [
    { props := { nodeName := "paragraph" }
      content := some (.segments [
        .text "see ",
        .node {
          props := { nodeName := "inline_quoted", subType := some "monospaced" }
          text := some code }]) },
    { props := { nodeName := "ulist" }
      items := some [{ props := { nodeName := "list_item" }, text := some item }] }]

def sectionOfWholeTexts : Node :=
  sectionOfTexts (.plain "title") (.segments [.text "", .text "f(x)"]) (.plain "")

def sectionOfCutTexts : Node :=
  sectionOfTexts (.segments [.text "ti", .text "", .text "tle"])
    (.segments [.text "f(", .text "x)"]) (.segments [.text "", .text ""])

theorem conversions_of_cut_texts :
    sectionOfWholeTexts.TextEquivalent sectionOfCutTexts ∧
      (∀ o, Mdast.conversion o sectionOfWholeTexts = Mdast.conversion o sectionOfCutTexts) ∧
      Plain.conversion sectionOfWholeTexts = Plain.conversion sectionOfCutTexts := by
  have h : sectionOfWholeTexts.TextEquivalent sectionOfCutTexts := by rfl
  exact ⟨h, conversions_eq_of_textEquivalent h⟩

end DocTree
