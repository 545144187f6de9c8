import DocTree.Proofs.Mdast.Record
import DocTree.Proofs.Members

/-!
The record of a node in one form for all kinds: a type, a payload that holds other nodes or their
text, and members around the payload. The members around it depend on the node itself alone and
share no key with it.
-/

namespace DocTree

namespace Mdast

def typeName (p : Properties) : String :=
  match p.kind with
  | .document => "root"
  | .preamble | .section => "block"
  | .paragraph => "paragraph"
  | .unorderedList => "list"
  | .inlineQuoted =>
    match p.subType with
    | some "strong" => "strong"
    | some "emphasis" => "emphasis"
    | some "monospaced" => "inlineCode"
    | other => "inline:" ++ other.getD ""
  | .inlineAnchor => "link"
  | .inlineImage | .image => "image"
  | .other => "unknown:" ++ p.nodeName

/-- The type of the record of a node, unless it is made from a name in the source. -/
def fixedType? (p : Properties) : Option String :=
  match p.kind with
  | .document => some "root"
  | .preamble | .section => some wrapperType
  | .paragraph => some "paragraph"
  | .unorderedList => some "list"
  | .inlineQuoted =>
    match p.subType with
    | some "strong" => some "strong"
    | some "emphasis" => some "emphasis"
    | some "monospaced" => some "inlineCode"
    | _ => none
  | .inlineAnchor => some "link"
  | .inlineImage | .image => some "image"
  | .other => none

/-- A type that is made from a name has a colon, so no name can pass for a fixed type. -/
theorem fixedType?_of_typeName {p : Properties} {t : String} (h : typeName p = t)
    (hcolon : ':' ∉ t.toList) : fixedType? p = some t := by
  subst h
  cases hk : p.kind with
  | inlineQuoted =>
      simp only [typeName, hk] at hcolon
      simp only [fixedType?, typeName, hk]
      split
      · rfl
      · rfl
      · rfl
      · next hstrong hemphasis hmonospaced =>
          split at hcolon <;> simp_all
  | other => simp [typeName, hk] at hcolon
  | document | preamble | «section» | paragraph | unorderedList | inlineAnchor | inlineImage
  | image => simp only [fixedType?, typeName, hk, wrapperType]

theorem kind_of_wrapper {p : Properties} (h : typeName p = wrapperType) :
    p.kind = .preamble ∨ p.kind = .section := by
  have h := fixedType?_of_typeName h (by decide)
  cases hk : p.kind with
  | preamble => exact .inl rfl
  | «section» => exact .inr rfl
  | inlineQuoted =>
      simp only [fixedType?, hk, wrapperType] at h
      split at h <;> simp at h
  | document | paragraph | unorderedList | inlineAnchor | inlineImage | image | other =>
      simp [fixedType?, hk, wrapperType] at h

/-- A position on one line, in its first column. -/
def positionOnLine (line : UInt64) (file : Option String) : Json :=
  let point := Json.obj (("line", .ofNat line) :: ("column", .ofNat 0) ::
    (file.map fun name => ("file", Json.str name)).toList)
  .obj [("start", point), ("end", point)]

theorem position?_toJson (p : Properties) :
    p.position?.map Position.toJson =
      p.location.bind fun l => l.line.map fun line => positionOnLine line l.file := by
  rw [Properties.position?]
  cases p.location with
  | none => rfl
  | some l =>
      obtain ⟨line, file⟩ := l
      cases line with
      | none => rfl
      | some line => cases file <;> rfl

def leading (o : Options) (p : Properties) : Json.Members :=
  match p.kind with
  | .document | .preamble | .other | .unorderedList => sourceMembers o p
  | .inlineAnchor => [("title", textOrNull p.alt), ("url", textOrNull p.target)]
  | .inlineImage | .image => [("alt", textOrNull p.alt), ("url", textOrNull (imageTarget p))]
  | .section | .paragraph | .inlineQuoted => []

/-- The members of a general node that say what it is like. -/
def details (n : Node) : Json.Members :=
  textMember "title" (n.title.map RichText.plainText) ++ textMember "alt" n.props.alt ++
    textMember "target" n.props.target ++ textMember "asciiDocType" n.props.subType ++
    textMember "id" n.props.id ++ textMember "role" n.props.role ++
    textMember "reftext" n.props.reftext ++
    Json.member? "level" Json.ofInt64 (n.props.level.filter (· ≠ 0))

def trailing (o : Options) (n : Node) : Json.Members :=
  match n.props.kind with
  | .document | .preamble | .other => details n ++ positionMember n.props
  | .section | .paragraph | .unorderedList => positionMember n.props
  | .inlineQuoted =>
    if n.props.subType = some "monospaced" then [] else sourceMembers o n.props
  | .inlineAnchor | .inlineImage | .image => []

/-- The part of a record that holds other nodes, or their text. -/
def payload (o : Options) (n : Node) : Json.Members :=
  match n.body with
  | .nothing => []
  | .flow parts => [("children", .arr (childNodes o parts))]
  | .titled title parts =>
    [("children", .arr (heading n.props (childNodes o title) :: childNodes o parts))]
  | .list items => [("items", .arr (items.map (item o)))]
  | .code parts => [("value", .str (Json.textOfItems (parts.map (segmentValue o))))]

theorem spanType_eq {p : Properties} (hk : p.kind = .inlineQuoted)
    (hs : p.subType ≠ some "monospaced") : spanType p = typeName p := by
  simp only [spanType, typeName, hk]
  split <;> simp_all

theorem record_eq (o : Options) (n : Node) :
    record o n = ("type", .str (typeName n.props)) ::
      (leading o n.props ++ payload o n ++ trailing o n) := by
  rw [record_by_kind]
  cases hk : n.props.kind with
  | document | preamble | other =>
      simp only [payload, Node.body, leading, trailing, typeName, hk, generalChildren?]
      cases n.blocks <;> cases n.content <;>
        simp [generalRecord, generalType, wrapperType, hk, details, Json.member?]
  | «section» =>
      simp [payload, Node.body, leading, trailing, typeName, hk, sectionRecord, wrapperType]
  | paragraph => simp [payload, Node.body, leading, trailing, typeName, hk, paragraphRecord]
  | unorderedList => simp [payload, Node.body, leading, trailing, typeName, hk, listRecord]
  | inlineQuoted =>
      by_cases hs : n.props.subType = some "monospaced"
      · simp [payload, Node.body, leading, trailing, typeName, hk, hs, codeRecord]
      · simp [payload, Node.body, leading, trailing, hk, hs, spanRecord, spanType_eq hk hs]
  | inlineAnchor => simp [payload, Node.body, leading, trailing, typeName, hk, linkRecord]
  | inlineImage | image => simp [payload, Node.body, leading, trailing, typeName, hk, imageRecord]

/-- The keys under which a record, or an item of a list, can hold its type or other nodes. -/
def payloadKeys : List String := ["type", "children", "items", "value", "text", "blocks"]

/-- None of the members has a key of a payload. -/
def Apart (members : Json.Members) : Prop := ∀ m ∈ members, m.1 ∉ payloadKeys

theorem Apart.append {as bs : Json.Members} (ha : Apart as) (hb : Apart bs) :
    Apart (as ++ bs) := by
  intro m hm
  exact (List.mem_append.mp hm).elim (ha m) (hb m)

theorem apart_member {α : Type} {key : String} {toJson : α → Json} {value : Option α}
    (h : key ∉ payloadKeys) : Apart (Json.member? key toJson value) := by
  cases value with
  | none => exact List.forall_mem_nil _
  | some v => exact List.forall_mem_singleton.mpr h

theorem apart_sourceMembers (o : Options) (p : Properties) : Apart (sourceMembers o p) := by
  rw [sourceMembers]
  split
  · exact List.forall_mem_nil _
  · simp [Apart, payloadKeys]

theorem apart_positionMember (p : Properties) : Apart (positionMember p) :=
  apart_member (by decide)

theorem apart_leading (o : Options) (p : Properties) : Apart (leading o p) := by
  rw [leading]
  cases p.kind with
  | document | preamble | other | unorderedList => exact apart_sourceMembers o p
  | inlineAnchor | inlineImage | image | «section» | paragraph | inlineQuoted =>
      simp [Apart, payloadKeys]

theorem apart_details (n : Node) : Apart (details n) := by
  rw [details]
  refine .append (.append (.append (.append (.append (.append (.append ?_ ?_) ?_) ?_) ?_) ?_) ?_) ?_
  all_goals exact apart_member (by decide)

theorem apart_trailing (o : Options) (n : Node) : Apart (trailing o n) := by
  rw [trailing]
  cases n.props.kind with
  | document | preamble | other => exact (apart_details n).append (apart_positionMember _)
  | «section» | paragraph | unorderedList => exact apart_positionMember _
  | inlineQuoted =>
      by_cases hs : n.props.subType = some "monospaced"
      · simp [hs, Apart]
      · simp only [hs, ite_false]
        exact apart_sourceMembers o _
  | inlineAnchor | inlineImage | image => exact List.forall_mem_nil _

theorem lookup_of_apart {key : String} {members : Json.Members} (h : Apart members)
    (hkey : key ∈ payloadKeys) : members.lookup key = none := by
  rw [List.lookup_eq_none_iff]
  intro m hm
  have : m.1 ≠ key := fun hk => h m hm (hk ▸ hkey)
  simpa using this.symm

theorem lookup_record (o : Options) (n : Node) {key : String} (hkey : key ∈ payloadKeys)
    (htype : key ≠ "type") : (record o n).lookup key = (payload o n).lookup key := by
  rw [record_eq, Json.lookup_cons, if_neg htype.symm]
  simp [List.lookup_append, lookup_of_apart (apart_leading o n.props) hkey,
    lookup_of_apart (apart_trailing o n) hkey]

@[simp] theorem string?_type_record (o : Options) (n : Node) :
    Json.Members.string? "type" (record o n) = some (typeName n.props) := by
  rw [record_eq]
  rfl

end Mdast

end DocTree
