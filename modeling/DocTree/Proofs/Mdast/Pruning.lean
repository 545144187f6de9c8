import DocTree.Proofs.Mdast.Rewritten

/-!
What a conversion reads. The kind of a node decides which of its fields count; a tree that is cut
down to these converts to the same tree, with the same events.
-/

namespace DocTree

/-- What is read of a node of its kind. The nodes in the fields of `m` are cut down already; of the
title of a general node the plain text is read, so that is taken from the node as it was. -/
def Node.keepRead (n m : Node) : Node :=
  let p := n.props
  match p.kind with
  | .document | .preamble | .other =>
    { props := p
      title := n.title.map fun t => .plain t.plainText
      content := if n.blocks.isSome then none else m.content
      blocks := m.blocks }
  | .section =>
    { props := { nodeName := p.nodeName, level := p.level, location := p.location }
      title := m.title
      blocks := m.blocks }
  | .paragraph =>
    { props := { nodeName := p.nodeName, location := p.location }
      content := m.content }
  | .unorderedList =>
    { props := { nodeName := p.nodeName, context := p.context, location := p.location }
      items := m.items }
  | .inlineQuoted =>
    { props := { nodeName := p.nodeName, context := p.context, subType := p.subType }
      text := m.text }
  | .inlineAnchor =>
    { props := { nodeName := p.nodeName, alt := p.alt, target := p.target }
      text := m.text }
  | .inlineImage => { props := { nodeName := p.nodeName, alt := p.alt, target := p.target } }
  | .image =>
    let target := p.attributes.bind (Json.Members.string? "target")
    { props :=
        { nodeName := p.nodeName
          alt := p.alt
          attributes := target.map fun s => [("target", .str s)] } }

/-- What is read of an item of a list, whatever its kind. -/
def Node.keepItem (n m : Node) : Node :=
  { props := { nodeName := n.props.nodeName }, text := m.text, blocks := m.blocks }

def pruning : Rewriting where
  node := Node.keepRead
  item := Node.keepItem

namespace Node

/-- The node without all that no conversion to Mdast reads, at every depth. -/
def pruned (n : Node) : Node := pruning.apply n

theorem pruned_eq (n : Node) : n.pruned = n.keepRead (n.mapNodes pruned pruning.applyItem) :=
  pruning.apply_eq n

theorem nodeName_pruned (n : Node) : n.pruned.props.nodeName = n.props.nodeName := by
  rw [pruned_eq, keepRead]
  cases n.props.kind <;> rfl

theorem kind_pruned (n : Node) : n.pruned.props.kind = n.props.kind :=
  congrArg NodeKind.ofName n.nodeName_pruned

theorem itemMapped_pruned (item : Node) : ItemMapped pruned item (pruning.applyItem item) := by
  obtain ⟨htext, hblocks⟩ := itemMapped_mapNodes (f := pruned) pruning.applyItem item
  rw [Rewriting.applyItem_eq]
  exact ⟨htext, hblocks⟩

/-- What is cut away is not part of any body. -/
theorem body_pruned (n : Node) : n.pruned.body = (n.mapNodes pruned pruning.applyItem).body := by
  have hkind := n.kind_pruned
  have hkind' : (n.mapNodes pruned pruning.applyItem).props.kind = n.props.kind := rfl
  cases hk : n.props.kind with
  | document | preamble | other =>
      simp only [body, hkind, hkind', hk]
      simp only [pruned_eq n, keepRead, hk, mapNodes]
      cases n.blocks <;> rfl
  | «section» | paragraph | unorderedList | inlineAnchor =>
      simp only [body, hkind, hkind', hk]
      simp only [pruned_eq n, keepRead, hk, mapNodes]
  | inlineQuoted =>
      simp only [body, hkind, hkind', hk]
      simp only [pruned_eq n, keepRead, hk, mapNodes]
      rfl
  | inlineImage | image => simp only [body, hkind, hkind', hk]

theorem bodyMapped_pruned (n : Node) : Body.Mapped pruned n.body n.pruned.body := by
  rw [body_pruned]
  exact (fieldsMapped_mapNodes itemMapped_pruned n).body rfl .rfl

theorem events_pruned (n : Node) : n.pruned.events = n.events := by
  have hkind := n.kind_pruned
  cases hk : n.props.kind with
  | document | preamble | other =>
      simp only [events, unknown?, recorded?, hkind, hk]
      simp only [pruned_eq n, keepRead, hk]
  | «section» | paragraph | unorderedList | inlineQuoted | inlineAnchor | inlineImage | image =>
      rw [events_of_known (by simp [hkind, hk]), events_of_known (by simp [hk]), nodeName_pruned]

end Node

namespace Mdast

theorem imageTarget_pruned {n : Node} (hk : n.props.kind = .inlineImage ∨ n.props.kind = .image) :
    imageTarget n.pruned.props = imageTarget n.props := by
  have hkind := n.kind_pruned
  rcases hk with hk | hk
  · simp only [imageTarget, hkind, hk]
    simp only [n.pruned_eq, Node.keepRead, hk]
  · simp only [imageTarget, hkind, hk]
    simp only [n.pruned_eq, Node.keepRead, hk]
    cases n.props.attributes.bind (Json.Members.string? "target") <;> rfl

theorem details_pruned {n : Node}
    (hk : n.props.kind = .document ∨ n.props.kind = .preamble ∨ n.props.kind = .other) :
    details n.pruned = details n := by
  have htitle : n.pruned.title.map RichText.plainText = n.title.map RichText.plainText := by
    rcases hk with hk | hk | hk
    all_goals
      simp only [n.pruned_eq, Node.keepRead, hk, Option.map_map]
      rfl
  rw [details, details, htitle]
  rcases hk with hk | hk | hk <;> simp only [n.pruned_eq, Node.keepRead, hk]

theorem rewrites_pruned (o : Options) : Rewrites [] o o Node.pruned where
  spare := fun _ _ => List.not_mem_nil
  flat_eq := rfl
  typeName_eq n := by
    have hkind := n.kind_pruned
    cases hk : n.props.kind with
    | inlineQuoted =>
        simp only [typeName, hkind, hk]
        simp only [n.pruned_eq, Node.keepRead, hk]
    | other => simp only [typeName, hkind, hk, Node.nodeName_pruned]
    | document | preamble | «section» | paragraph | unorderedList | inlineAnchor | inlineImage
    | image => simp only [typeName, hkind, hk]
  depth_eq n hk := by simp only [n.pruned_eq, Node.keepRead, hk]
  leading_eq n := by
    have hkind := n.kind_pruned
    rw [Json.withoutMembers_nil]
    cases hk : n.props.kind with
    | document | preamble | other | unorderedList | inlineAnchor =>
        simp only [leading, hkind, hk]
        simp only [n.pruned_eq, Node.keepRead, hk, sourceMembers]
    | inlineImage | image =>
        simp only [leading, hkind, hk, imageTarget_pruned (n := n) (by simp [hk])]
        simp only [n.pruned_eq, Node.keepRead, hk]
    | «section» | paragraph | inlineQuoted => simp only [leading, hkind, hk]
  trailing_eq n := by
    have hkind := n.kind_pruned
    rw [Json.withoutMembers_nil]
    cases hk : n.props.kind with
    | document | preamble | other =>
        simp only [trailing, hkind, hk, details_pruned (n := n) (by simp [hk])]
        simp only [n.pruned_eq, Node.keepRead, hk]
    | «section» | paragraph | unorderedList =>
        simp only [trailing, hkind, hk, positionMember, Properties.position?]
        simp only [n.pruned_eq, Node.keepRead, hk]
    | inlineQuoted =>
        simp only [trailing, hkind, hk, sourceMembers]
        simp only [n.pruned_eq, Node.keepRead, hk]
    | inlineAnchor | inlineImage | image => simp only [trailing, hkind, hk]
  body_mapped := Node.bodyMapped_pruned

/-- A conversion depends on nothing but what it reads: the tree that is cut down to it converts to
the same tree, with the same data and diagnostics. -/
theorem conversion_pruned (o : Options) (n : Node) : conversion o n.pruned = conversion o n :=
  conversion_mapped (rewrites_pruned o) Node.events_pruned n

end Mdast

end DocTree
