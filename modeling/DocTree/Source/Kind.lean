import DocTree.Source.Node
import DocTree.Text.Quoted

/-!
The kinds of nodes that the conversions tell apart, and the texts that a node contributes.
-/

namespace DocTree

/-- The kind of a node. It is decided by the node's name alone. -/
inductive NodeKind where
  | document
  | preamble
  | section
  | paragraph
  | unorderedList
  | inlineQuoted
  | inlineAnchor
  | inlineImage
  | image
  | other
  deriving DecidableEq

def NodeKind.ofName : String → NodeKind
  | "document" => .document
  | "preamble" => .preamble
  | "section" => .section
  | "paragraph" => .paragraph
  | "ulist" => .unorderedList
  | "inline_quoted" => .inlineQuoted
  | "inline_anchor" => .inlineAnchor
  | "inline_image" => .inlineImage
  | "image" => .image
  | _ => .other

namespace NodeKind

/-- The one name of a kind, but for the kind of all other names. -/
def name? : NodeKind → Option String
  | .document => some "document"
  | .preamble => some "preamble"
  | .section => some "section"
  | .paragraph => some "paragraph"
  | .unorderedList => some "ulist"
  | .inlineQuoted => some "inline_quoted"
  | .inlineAnchor => some "inline_anchor"
  | .inlineImage => some "inline_image"
  | .image => some "image"
  | .other => none

theorem name?_ofName (name : String) :
    (ofName name).name? = some name ∨ ofName name = .other := by
  unfold ofName
  split <;> simp [name?]

theorem ofName_eq_iff {kind : NodeKind} {name own : String} (h : kind.name? = some own) :
    ofName name = kind ↔ name = own := by
  constructor
  · rintro rfl
    obtain hname | hother := name?_ofName name
    · exact Option.some.inj (hname.symm.trans h)
    · rw [hother] at h
      cases h
  · rintro rfl
    cases kind <;> cases h <;> rfl

theorem ofName_eq_other_iff (name : String) :
    ofName name = .other ↔ ∀ kind : NodeKind, kind.name? ≠ some name := by
  constructor
  · intro hother kind hname
    have hkind := (ofName_eq_iff hname).mpr rfl
    rw [← hkind, hother] at hname
    cases hname
  · intro h
    exact (name?_ofName name).resolve_left (h _)

end NodeKind

def Properties.kind (p : Properties) : NodeKind := .ofName p.nodeName

/-- The text of a property, if it has one that is not empty. -/
def nonEmpty? (s : Option String) : Option String := s.filter (· ≠ "")

/-- A segment as it is shown in messages: its text, or the name of its node. -/
def Segment.describe : Segment → String
  | .text s => "Text(" ++ Text.quote s ++ ")"
  | .node n => "Node(" ++ Text.quote n.props.nodeName ++ ")"

mutual

/-- The text of a node within inline content: that of its `text`, or else of its `content`. -/
def Node.plainText : Node → String
  | ⟨_, _, content, text, _, _⟩ =>
    match text with
    | some t => t.plainText
    | none =>
      match content with
      | some t => t.plainText
      | none => ""

/-- The text of inline content with the texts of the nodes in it. -/
def RichText.plainText : RichText → String
  | .plain text => text
  | .segments parts => Segment.plainTexts parts

def Segment.plainTexts : List Segment → String
  | [] => ""
  | .text s :: rest => s ++ Segment.plainTexts rest
  | .node n :: rest => n.plainText ++ Segment.plainTexts rest

end

end DocTree
