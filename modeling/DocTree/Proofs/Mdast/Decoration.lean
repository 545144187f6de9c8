import DocTree.Proofs.Mdast.Rewritten
import DocTree.Proofs.PlainText

/-!
Names, contexts and positions in converted trees. They are decoration: a tree from which they are
taken away is the tree that is converted without them, from a source that has no locations.
-/

namespace DocTree

/-- Takes the locations of all nodes away. -/
def unlocating : Rewriting where
  node _ n := { n with props.location := none }

def Node.unlocated (n : Node) : Node := unlocating.apply n

theorem Node.unlocated_eq (n : Node) :
    n.unlocated =
      { n.mapNodes unlocated unlocated with props := { n.props with location := none } } :=
  unlocating.apply_eq n

@[simp] theorem Node.props_unlocated (n : Node) :
    n.unlocated.props = { n.props with location := none } := by
  rw [unlocated_eq]

theorem Node.fieldsMapped_unlocated (n : Node) : FieldsMapped unlocated n n.unlocated :=
  fieldsMapped_apply (r := unlocating)
    { item := rfl
      title := fun _ _ _ => rfl
      content := fun _ _ => rfl
      text := fun _ _ => rfl
      blocks := fun _ _ => rfl
      items := fun _ _ => rfl } n

namespace Mdast

/-- The keys of what a record tells about its source. -/
def decoration : List String := ["name", "context", "position"]

theorem withoutMembers_sourceMembers (o : Options) (p : Properties) :
    Json.withoutMembers decoration (sourceMembers o p) = [] := by
  rw [sourceMembers]
  split <;> rfl

theorem withoutMembers_positionMember (p : Properties) :
    Json.withoutMembers decoration (positionMember p) = [] := by
  rw [positionMember]
  cases p.position? <;> rfl

theorem withoutMembers_details (n : Node) :
    Json.withoutMembers decoration (details n) = details n := by
  have htext {key : String} (h : key ∉ decoration) (s : Option String) :
      Json.withoutMembers decoration (textMember key s) = textMember key s :=
    Json.withoutMembers_member? h _ fun _ => rfl
  have hlevel (level : Option Int64) :
      Json.withoutMembers decoration (Json.member? "level" Json.ofInt64 level) =
        Json.member? "level" Json.ofInt64 level :=
    Json.withoutMembers_member? (by decide) level fun _ => rfl
  simp only [details, Json.withoutMembers_append, hlevel]
  rw [htext (by decide), htext (by decide), htext (by decide), htext (by decide),
    htext (by decide), htext (by decide), htext (by decide)]

theorem details_unlocated (n : Node) : details n.unlocated = details n := by
  have htitle : n.unlocated.title.map RichText.plainText = n.title.map RichText.plainText := by
    refine RichText.plainText_mapped Node.fieldsMapped_unlocated ?_
    rw [Node.unlocated_eq]
    exact RichText.mapped_mapNodes n.title
  simp only [details, htitle, Node.props_unlocated]

theorem without_textOrNull (keys : List String) (s : Option String) :
    (textOrNull s).without keys = textOrNull s := by
  rw [textOrNull]
  cases nonEmpty? s <;> rfl

theorem rewrites_unlocated (flat : Bool) :
    Rewrites decoration { flat, noAsciiDocData := false } { flat, noAsciiDocData := true }
      Node.unlocated where
  spare := by
    rw [Spare]
    decide
  flat_eq := rfl
  typeName_eq n := by
    rw [Node.props_unlocated]
    rfl
  depth_eq n _ := by rw [Node.props_unlocated]
  leading_eq n := by
    rw [Node.props_unlocated]
    have hkind : ({ n.props with location := none } : Properties).kind = n.props.kind := rfl
    cases hk : n.props.kind with
    | document | preamble | other | unorderedList =>
        simp only [leading, hkind, hk, withoutMembers_sourceMembers]
        rfl
    | inlineAnchor | inlineImage | image =>
        simp only [leading, hkind, hk]
        rw [Json.withoutMembers_cons (by decide), Json.withoutMembers_cons (by decide),
          without_textOrNull, without_textOrNull]
        rfl
    | «section» | paragraph | inlineQuoted =>
        simp only [leading, hkind, hk]
        rfl
  trailing_eq n := by
    have hkind : n.unlocated.props.kind = n.props.kind := by
      rw [Node.props_unlocated]
      rfl
    have hsub : n.unlocated.props.subType = n.props.subType := by rw [Node.props_unlocated]
    have hposition : positionMember n.unlocated.props = [] := by
      rw [Node.props_unlocated]
      rfl
    cases hk : n.props.kind with
    | document | preamble | other =>
        simp only [trailing, hkind, hk, hposition, details_unlocated, Json.withoutMembers_append,
          withoutMembers_details, withoutMembers_positionMember]
    | «section» | paragraph | unorderedList =>
        simp only [trailing, hkind, hk, hposition, withoutMembers_positionMember]
    | inlineQuoted =>
        simp only [trailing, hkind, hk, hsub]
        split
        · rfl
        · rw [withoutMembers_sourceMembers]
          rfl
    | inlineAnchor | inlineImage | image =>
        simp only [trailing, hkind, hk]
        rfl
  body_mapped n := by
    refine n.fieldsMapped_unlocated.body ?_ ?_
    · rw [Node.props_unlocated]
      rfl
    · rw [Node.props_unlocated]

theorem events_unlocated (n : Node) : n.unlocated.events = n.events := by
  simp only [Node.events, Node.unknown?, Node.recorded?, Node.props_unlocated]
  rfl

/-- Without names, contexts and positions, a tree is the one that is converted without them from a
source without locations. They have no part in what is recorded and reported. -/
theorem tree_without_decoration (flat : Bool) (n : Node) :
    let decorated := conversion { flat, noAsciiDocData := false } n
    let bare := conversion { flat, noAsciiDocData := true } n.unlocated
    decorated.tree.without decoration = bare.tree ∧ decorated.data = bare.data ∧
      decorated.diagnostics = bare.diagnostics := by
  have hevents := (rewrites_unlocated flat).events_mapped events_unlocated n
  refine ⟨((rewrites_unlocated flat).tree_mapped n).symm, ?_, ?_⟩
  · rw [Conversion.data, Conversion.data, hevents]
  · rw [Conversion.diagnostics, Conversion.diagnostics, hevents]

end Mdast

end DocTree
