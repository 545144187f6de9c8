import DocTree.Proofs.Mdast.Rewritten
import DocTree.Proofs.Plain.Record
import DocTree.Proofs.PlainText

/-!
The text of converted inline content and the plain text of its source. The plain text is read from
the `text` of the nodes, or else from their `content`; a converted node has the text of its value or
of its children. The two agree for the nodes that stand in running text, whose conversions have no
other source of text than the plain text has.
-/

namespace DocTree

open RichText (segmentsOf)
open Segment (nodes plainTexts)

/-- A node of running text: a quoted span or a link that does not have its text in `content`, with
only such nodes in its `text`, or an image without text. -/
inductive Node.IsInline : Node → Prop where
  | span {n : Node} (kind : n.props.kind = .inlineQuoted ∨ n.props.kind = .inlineAnchor)
      (read : n.text.isSome ∨ n.content = none)
      (inner : ∀ m ∈ nodes (segmentsOf n.text), m.IsInline) : n.IsInline
  | image {n : Node} (kind : n.props.kind = .inlineImage ∨ n.props.kind = .image)
      (text : n.text = none) (content : n.content = none) : n.IsInline

namespace Mdast

variable (o : Options)

theorem segmentsText_eq_plainTexts {parts : List Segment}
    (h : ∀ n ∈ nodes parts, (Json.obj (record o n)).textContent = n.plainText) :
    segmentsText o parts = plainTexts parts := by
  induction parts with
  | nil => rfl
  | cons part rest ih =>
      cases part with
      | text s =>
          rw [plainTexts, ← ih h]
          rfl
      | node n =>
          rw [Segment.nodes_node, List.forall_mem_cons] at h
          rw [plainTexts, ← h.1, ← ih h.2]
          rfl

theorem bodyText_span {n : Node}
    (h : n.props.kind = .inlineQuoted ∨ n.props.kind = .inlineAnchor) :
    bodyText o n.body = segmentsText o (segmentsOf n.text) := by
  rcases h with h | h
  · simp only [Node.body, h]
    split <;> rfl
  · simp only [Node.body, h, bodyText]

theorem textContent_of_isInline {n : Node} (h : n.IsInline) :
    (Json.obj (record o n)).textContent = n.plainText := by
  induction h with
  | @span n kind read _ ih =>
      -- The plain text looks at `content` only where there is no `text`, and then finds none.
      have htext : segmentsOf (n.text.or n.content) = segmentsOf n.text := by
        rcases read with htext | hcontent
        · rw [Option.or_of_isSome htext]
        · rw [hcontent, Option.or_none]
      rw [textContent_record_eq, bodyText_span o kind, Node.plainText_eq, htext]
      exact segmentsText_eq_plainTexts o ih
  | @image n kind text content =>
      have hbody : n.body = .nothing := by
        rcases kind with kind | kind <;> simp only [Node.body, kind]
      rw [textContent_record_eq, hbody, Node.plainText_eq, text, content]
      rfl

theorem textContent_decode (content : Option RichText) :
    (decode o content).value.textContent = segmentsText o (segmentsOf content) := by
  rw [value_decode, Fragment.textContent_ofParts, toList_map_fragment]
  rfl

theorem under_children_of_section {n : Node} (h : n.props.kind = .section) :
    under "children" (conversion o n).tree =
      heading n.props (childNodes o (segmentsOf n.title)) ::
        childNodes o ((n.blocks.getD []).map .node) := by
  change under "children" (.obj (record o n)) = _
  rw [← children_eq_under]
  simp only [children, Node.body, h]

theorem tree_of_code {n : Node} (hkind : n.props.kind = .inlineQuoted)
    (hsub : n.props.subType = some "monospaced") :
    (conversion o n).tree = .obj (codeRecord (segmentsText o (segmentsOf n.text))) := by
  change Json.obj (record o n) = _
  rw [record_by_kind]
  simp only [hkind, hsub, if_pos]
  rfl

end Mdast

theorem Plain.lookup_title {n : Node} (h : n.props.kind = .section) :
    (record n).lookup "title" = (nonEmpty? (n.title.map RichText.plainText)).map .str := by
  have hbody : (payload n).lookup "title" = none := by
    simp only [payload, body, h]
    cases n.blocks <;> cases n.content <;> rfl
  rw [record_eq]
  simp [leading, trailing, h, hbody, header, attributesMember, textMember, List.lookup_append,
    Json.lookup_member?, Json.lookup_cons]

/-- A missing text and an empty one are the same where empty texts are left out. -/
theorem nonEmpty?_plainText (content : Option RichText) :
    nonEmpty? (content.map RichText.plainText) =
      if plainTexts (segmentsOf content) = "" then none
      else some (plainTexts (segmentsOf content)) := by
  cases content with
  | none => rfl
  | some t =>
      by_cases ht : plainTexts t.toSegments = "" <;>
        simp [nonEmpty?, segmentsOf, t.plainText_eq, ht]

/-- Converted inline content has the plain text of its source. So the heading of a section has the
text that is the title in the plain tree, where an empty title is left out, and code has the plain
text of the span. -/
theorem converted_text_eq_plainTexts (o : Options) {content : Option RichText}
    (h : ∀ n ∈ nodes (segmentsOf content), n.IsInline) :
    (Mdast.decode o content).value.textContent = plainTexts (segmentsOf content) ∧
    (∀ n : Node, n.props.kind = .section → n.title = content →
      ∃ title rest members,
        Mdast.under "children" (Mdast.conversion o n).tree =
          Mdast.heading n.props title :: rest ∧
        Json.textOfItems title = plainTexts (segmentsOf content) ∧
        (Plain.conversion n).tree = .obj members ∧
        members.lookup "title" =
          if Json.textOfItems title = "" then none
          else some (.str (Json.textOfItems title))) ∧
    ∀ n : Node, n.props.kind = .inlineQuoted → n.props.subType = some "monospaced" →
      n.text = content →
      (Mdast.conversion o n).tree =
        .obj [("type", .str "inlineCode"), ("value", .str (plainTexts (segmentsOf content)))] := by
  have htext : Mdast.segmentsText o (segmentsOf content) = plainTexts (segmentsOf content) :=
    Mdast.segmentsText_eq_plainTexts o fun n hn => Mdast.textContent_of_isInline o (h n hn)
  refine ⟨?decoded, ?titled, ?code⟩
  case decoded => rw [Mdast.textContent_decode, htext]
  case titled =>
    rintro n hkind rfl
    have hheading := Mdast.textOfItems_childNodes o (segmentsOf n.title)
    rw [htext] at hheading
    refine ⟨_, _, _, Mdast.under_children_of_section o hkind, hheading, rfl, ?_⟩
    have htitle := Plain.lookup_title hkind
    rw [nonEmpty?_plainText] at htitle
    rw [hheading]
    refine htitle.trans ?_
    split <;> rfl
  case code =>
    rintro n hkind hsub rfl
    rw [Mdast.tree_of_code o hkind hsub, htext]
    rfl

/-- A title with a code span in a strong one, an image and a link. -/
def styledTitle : RichText :=
  .segments [
    .text "Using ",
    .node {
      props := { nodeName := "inline_quoted", subType := some "strong" }
      content := some (.segments [.node { props := { nodeName := "paragraph" } }])
      text := some (.segments [
        .text "the ",
        .node {
          props := { nodeName := "inline_quoted", subType := some "monospaced" }
          text := some (.plain "doctree") },
        .text ""]) },
    .node { props := { nodeName := "inline_image", alt := some "logo" } },
    .node { props := { nodeName := "inline_anchor" }, text := some (.plain " tool") }]

theorem converted_text_of_styledTitle :
    (∀ n ∈ nodes (segmentsOf (some styledTitle)), n.IsInline) ∧
      (Mdast.decode { flat := true } (some styledTitle)).value.textContent =
        "Using the doctree tool" ∧
      ∃ title rest members,
        Mdast.under "children" (Mdast.conversion { flat := true }
          { props := { nodeName := "section" }, title := some styledTitle }).tree =
            Mdast.heading { nodeName := "section" } title :: rest ∧
        Json.textOfItems title = "Using the doctree tool" ∧
        (Plain.conversion
          { props := { nodeName := "section" }, title := some styledTitle }).tree =
            .obj members ∧
        members.lookup "title" = some (.str "Using the doctree tool") := by
  have hcode : Node.IsInline {
      props := { nodeName := "inline_quoted", subType := some "monospaced" }
      text := some (.plain "doctree") } :=
    .span (.inl rfl) (.inl rfl) (List.forall_mem_nil _)
  have hinline : ∀ n ∈ nodes (segmentsOf (some styledTitle)), n.IsInline := by
    refine List.forall_mem_cons.mpr ⟨?strong, List.forall_mem_cons.mpr ⟨?image, ?link⟩⟩
    case strong => exact .span (.inl rfl) (.inl rfl) (List.forall_mem_singleton.mpr hcode)
    case image => exact .image (.inl rfl) rfl rfl
    case link =>
      exact List.forall_mem_singleton.mpr (.span (.inr rfl) (.inl rfl) (List.forall_mem_nil _))
  have hplain : plainTexts (segmentsOf (some styledTitle)) = "Using the doctree tool" := by decide
  obtain ⟨hdecoded, htitled, -⟩ := converted_text_eq_plainTexts { flat := true } hinline
  rw [hplain] at hdecoded htitled
  obtain ⟨title, rest, members, hheading, htext, htree, hlookup⟩ :=
    htitled { props := { nodeName := "section" }, title := some styledTitle } rfl rfl
  rw [htext, if_neg (by decide)] at hlookup
  exact ⟨hinline, hdecoded, title, rest, members, hheading, htext, htree, hlookup⟩

end DocTree
