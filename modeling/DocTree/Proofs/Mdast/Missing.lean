import DocTree.Proofs.Mdast.Rewritten
import DocTree.Proofs.PlainText

/-!
Empty and missing properties. An empty text, a level of 0, attributes without members and a location
without a line say nothing, and neither does the empty title of a general node: a tree from which
all of these are taken away converts to the same tree. Only the data can tell an empty id from none.
-/

namespace DocTree

theorem nonEmpty?_nonEmpty? (s : Option String) : nonEmpty? (nonEmpty? s) = nonEmpty? s := by
  simp [nonEmpty?]

theorem nonEmpty?_cases (s : Option String) :
    nonEmpty? s = s ∨ s = some "" ∧ nonEmpty? s = none := by
  cases s with
  | none => exact .inl rfl
  | some t =>
      by_cases h : t = ""
      · exact .inr ⟨congrArg some h, by simp [nonEmpty?, h]⟩
      · exact .inl (by simp [nonEmpty?, h])

/-- The properties of which none is empty: those that are become missing. -/
def Properties.tidied (p : Properties) : Properties :=
  { p with
    alt := nonEmpty? p.alt
    target := nonEmpty? p.target
    subType := nonEmpty? p.subType
    id := nonEmpty? p.id
    role := nonEmpty? p.role
    reftext := nonEmpty? p.reftext
    level := p.level.filter (· ≠ 0)
    attributes := p.attributes.filter fun members => !members.isEmpty
    location := p.location.filter fun l => l.line.isSome }

@[simp] theorem Properties.kind_tidied (p : Properties) : p.tidied.kind = p.kind := rfl

/-- The title of a node, but for an empty one of a general node. -/
def Node.tidiedTitle (n : Node) : Option RichText :=
  match n.props.kind with
  | .document | .preamble | .other => n.title.filter fun t => t.plainText ≠ ""
  | _ => n.title

/-- Takes everything away that is empty, at every depth. -/
def tidying : Rewriting where
  node _ n := { n with props := n.props.tidied, title := n.tidiedTitle }

namespace Node

def tidied (n : Node) : Node := tidying.apply n

theorem tidied_eq (n : Node) : n.tidied = tidying.node n (n.mapNodes tidied tidied) :=
  tidying.apply_eq n

@[simp] theorem props_tidied (n : Node) : n.tidied.props = n.props.tidied := by
  rw [tidied_eq]
  rfl

theorem fieldsMapped_tidied (n : Node) : FieldsMapped tidied n n.tidied :=
  fieldsMapped_apply (r := tidying)
    { item := rfl
      title := fun _ m hk => by simp only [tidying, tidiedTitle, hk]
      content := fun _ _ => rfl
      text := fun _ _ => rfl
      blocks := fun _ _ => rfl
      items := fun _ _ => rfl } n

/-- An empty title is left out of a record in any case. -/
theorem nonEmpty?_title_tidied (n : Node) :
    nonEmpty? (n.tidied.title.map RichText.plainText) =
      nonEmpty? (n.title.map RichText.plainText) := by
  have hfilter (title : Option RichText) :
      nonEmpty? ((title.filter fun t => t.plainText ≠ "").map RichText.plainText) =
        nonEmpty? (title.map RichText.plainText) := by
    cases title with
    | none => rfl
    | some t => by_cases h : t.plainText = "" <;> simp [nonEmpty?, Option.filter, h]
  rw [← RichText.plainText_mapped fieldsMapped_tidied (RichText.mapped_mapNodes n.title), tidied_eq]
  simp only [tidying, tidiedTitle]
  split
  · exact hfilter _
  · exact hfilter _
  · exact hfilter _
  · rfl

theorem recorded?_tidied (n : Node) : n.tidied.recorded? = n.recorded? := by
  simp only [recorded?, props_tidied, Properties.kind_tidied]
  simp only [Properties.tidied, Option.filter_filter, Bool.and_self]

end Node

namespace Mdast

theorem textMember_nonEmpty? (key : String) (s : Option String) :
    textMember key (nonEmpty? s) = textMember key s := by
  rw [textMember, nonEmpty?_nonEmpty?, textMember]

theorem textOrNull_nonEmpty? (s : Option String) : textOrNull (nonEmpty? s) = textOrNull s := by
  rw [textOrNull, nonEmpty?_nonEmpty?, textOrNull]

theorem details_tidied (n : Node) : details n.tidied = details n := by
  have htitle : textMember "title" (n.tidied.title.map RichText.plainText) =
      textMember "title" (n.title.map RichText.plainText) := by
    rw [textMember, n.nonEmpty?_title_tidied, textMember]
  simp only [details, htitle, Node.props_tidied, Properties.tidied, textMember_nonEmpty?,
    Option.filter_filter, Bool.and_self]

theorem positionMember_tidied (p : Properties) : positionMember p.tidied = positionMember p := by
  have hposition : p.tidied.position? = p.position? := by
    simp only [Properties.position?, Properties.tidied]
    cases p.location with
    | none => rfl
    | some l =>
        obtain ⟨line, path⟩ := l
        cases line <;> rfl
  rw [positionMember, hposition, positionMember]

theorem textOrNull_imageTarget_tidied (p : Properties) :
    textOrNull (imageTarget p.tidied) = textOrNull (imageTarget p) := by
  simp only [imageTarget, Properties.kind_tidied]
  split
  · exact textOrNull_nonEmpty? p.target
  · simp only [Properties.tidied]
    cases p.attributes with
    | none => rfl
    | some members => cases members <;> rfl

theorem typeName_tidied (p : Properties) : typeName p.tidied = typeName p := by
  cases hk : p.kind with
  | inlineQuoted =>
      simp only [typeName, Properties.kind_tidied, hk]
      simp only [Properties.tidied]
      rcases nonEmpty?_cases p.subType with h | ⟨hempty, h⟩
      · rw [h]
      · rw [h, hempty]
        rfl
  | other =>
      simp only [typeName, Properties.kind_tidied, hk]
      rfl
  | document | preamble | «section» | paragraph | unorderedList | inlineAnchor | inlineImage
  | image => simp only [typeName, Properties.kind_tidied, hk]

theorem headingDepth_tidied (p : Properties) :
    headingDepth p.tidied.level = headingDepth p.level := by
  have hlevel : p.tidied.level.getD 0 = p.level.getD 0 := by
    simp only [Properties.tidied]
    cases p.level with
    | none => rfl
    | some level => by_cases h : level = 0 <;> simp [Option.filter, h]
  rw [headingDepth, headingDepth, hlevel]

theorem monospaced_tidied (p : Properties) :
    p.tidied.subType = some "monospaced" ↔ p.subType = some "monospaced" := by
  simp only [Properties.tidied]
  rcases nonEmpty?_cases p.subType with h | ⟨hempty, h⟩
  · rw [h]
  · rw [h, hempty]
    decide

theorem leading_tidied (o : Options) (p : Properties) : leading o p.tidied = leading o p := by
  cases hk : p.kind with
  | document | preamble | other | unorderedList =>
      simp only [leading, Properties.kind_tidied, hk]
      rfl
  | «section» | paragraph | inlineQuoted => simp only [leading, Properties.kind_tidied, hk]
  | inlineAnchor =>
      simp only [leading, Properties.kind_tidied, hk]
      simp only [Properties.tidied, textOrNull_nonEmpty?]
  | inlineImage | image =>
      simp only [leading, Properties.kind_tidied, hk, textOrNull_imageTarget_tidied]
      simp only [Properties.tidied, textOrNull_nonEmpty?]

theorem trailing_tidied (o : Options) (n : Node) : trailing o n.tidied = trailing o n := by
  cases hk : n.props.kind with
  | document | preamble | other =>
      simp only [trailing, Node.props_tidied, Properties.kind_tidied, hk, details_tidied,
        positionMember_tidied]
  | «section» | paragraph | unorderedList =>
      simp only [trailing, Node.props_tidied, Properties.kind_tidied, hk, positionMember_tidied]
  | inlineQuoted =>
      simp only [trailing, Node.props_tidied, Properties.kind_tidied, hk, monospaced_tidied]
      rfl
  | inlineAnchor | inlineImage | image =>
      simp only [trailing, Node.props_tidied, Properties.kind_tidied, hk]

theorem rewrites_tidied (o : Options) : Rewrites [] o o Node.tidied where
  spare := fun _ _ => List.not_mem_nil
  flat_eq := rfl
  typeName_eq n := by rw [Node.props_tidied, typeName_tidied]
  depth_eq n _ := by rw [Node.props_tidied, headingDepth_tidied]
  leading_eq n := by rw [Node.props_tidied, leading_tidied, Json.withoutMembers_nil]
  trailing_eq n := by rw [trailing_tidied, Json.withoutMembers_nil]
  body_mapped n := by
    refine n.fieldsMapped_tidied.body ?_ ?_
    · rw [Node.props_tidied, Properties.kind_tidied]
    · rw [Node.props_tidied, monospaced_tidied]

end Mdast

/-- An empty id, as it may be put on record, is read as no id. -/
def Event.tidied : Event → Event
  | .record nodeName id attributes => .record nodeName (nonEmpty? id) attributes
  | .enter nodeName => .enter nodeName
  | .report d => .report d

def AttributeRecord.tidied (r : AttributeRecord) : AttributeRecord :=
  { r with id := nonEmpty? r.id }

theorem AttributeRecord.ofEvents_tidied (ordinal : Nat) (es : List Event) :
    ofEvents ordinal (es.map Event.tidied) = (ofEvents ordinal es).map tidied := by
  induction es generalizing ordinal with
  | nil => rfl
  | cons e es ih =>
      cases e with
      | enter _ | report _ => exact ih ordinal
      | record nodeName id attributes =>
          simp only [List.map_cons, Event.tidied, ofEvents, ih, tidied]

theorem Event.diagnostic?_tidied (e : Event) : e.tidied.diagnostic? = e.diagnostic? := by
  cases e <;> rfl

theorem Node.events_tidied (n : Node) : n.tidied.events = n.events.map Event.tidied := by
  have hunknown : n.tidied.unknown? = n.unknown? := by
    simp only [unknown?, props_tidied, Properties.kind_tidied]
    rfl
  rw [events, events, hunknown, recorded?_tidied, props_tidied]
  cases n.unknown? <;> cases n.recorded? <;> rfl

namespace Mdast

/-- What is empty converts like what is missing: the tree and the diagnostics are the same, and so
are the data, where an empty id counts as none. -/
theorem conversion_tidied (o : Options) (n : Node) :
    (conversion o n.tidied).tree = (conversion o n).tree ∧
      (conversion o n.tidied).diagnostics = (conversion o n).diagnostics ∧
      (conversion o n.tidied).data = (conversion o n).data.map AttributeRecord.tidied := by
  have hevents := (rewrites_tidied o).events_map Node.events_tidied n
  refine ⟨?_, ?_, ?_⟩
  · rw [(rewrites_tidied o).tree_mapped n, Json.without_nil]
  · simp only [Conversion.diagnostics, hevents, List.filterMap_map, Function.comp_def,
      Event.diagnostic?_tidied]
  · rw [Conversion.data, hevents, AttributeRecord.ofEvents_tidied, Conversion.data]

end Mdast

end DocTree
