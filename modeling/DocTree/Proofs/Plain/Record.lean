import DocTree.Plain
import DocTree.Proofs.Merged

/-!
The record of a node in the plain tree, in one form for all kinds: members that tell about the node
itself, around a payload that holds the nodes below it.
-/

namespace DocTree.Plain

open RichText (segmentsOf)
open Segment (inlineValue fragment)

def record (n : Node) : Json.Members := (convert n).value

def item (n : Node) : Json :=
  listItem (inlineValue record (segmentsOf n.text))
    ((n.blocks.getD []).map fun b => .obj (record b))

theorem value_convertAll (ns : List Node) :
    (convertAll ns).value = ns.map fun n => .obj (record n) := by
  induction ns with
  | nil => rfl
  | cons n ns ih => simp [convertAll, ih, record]

theorem value_convertBlocks (blocks : Option (List Node)) :
    (convertBlocks blocks).value = (blocks.getD []).map fun n => .obj (record n) := by
  cases blocks with
  | none => rfl
  | some ns => exact value_convertAll ns

theorem value_decodeParts (parts : List Segment) :
    (decodeParts parts).value = parts.map (fragment record) := by
  induction parts with
  | nil => rfl
  | cons part rest ih =>
      have hpart : (decodePart part).value = fragment record part := by
        cases part <;> simp [decodePart, fragment, record]
      simp [decodeParts, ih, hpart]

theorem value_decodeRich (t : RichText) :
    (decodeRich t).value.toJson = inlineValue record t.toSegments := by
  rw [← Segment.toJson_ofParts_fragments]
  cases t with
  | plain s => rfl
  | segments parts => simp [decodeRich, value_decodeParts, RichText.toSegments]

theorem value_decode (content : Option RichText) :
    (decode content).value = inlineValue record (segmentsOf content) := by
  cases content with
  | none => rfl
  | some t => exact value_decodeRich t

theorem value_convertItems? (items : Option (List Node)) :
    (convertItems? items).value = (items.getD []).map item := by
  have hitem (n : Node) : (convertItem n).value = item n := by
    obtain ⟨_, _, _, text, blocks, _⟩ := n
    simp [convertItem, item, value_decode, value_convertBlocks]
  have hitems (ns : List Node) : (convertItems ns).value = ns.map item := by
    induction ns with
    | nil => rfl
    | cons n ns ih => simp [convertItems, ih, hitem]
  cases items with
  | none => rfl
  | some ns => exact hitems ns

/-- What the conversion of a node goes on to. Inline content has the key under which it is
written. -/
inductive Body where
  | nothing
  | blocks (ns : List Node)
  | inline (key : String) (parts : List Segment)
  | list (items : List Node)

def body (n : Node) : Body :=
  match n.props.kind with
  | .paragraph => .inline "text" (segmentsOf n.content)
  | .unorderedList => .list (n.items.getD [])
  | .inlineQuoted => .inline "text" (segmentsOf n.text)
  | .document | .preamble | .section | .inlineAnchor | .inlineImage | .image | .other =>
    match n.blocks, n.content with
    | some ns, _ => .blocks ns
    | none, some t => .inline "content" t.toSegments
    | none, none => .nothing

def leading (n : Node) : Json.Members :=
  match n.props.kind with
  | .paragraph => header n.props ++ attributesMember n.props
  | .unorderedList => header n.props
  | .inlineQuoted =>
    header n.props ++ Json.member? "type" Json.str n.props.subType ++
      Json.member? "target" Json.str n.props.target
  | .document | .preamble | .section | .inlineAnchor | .inlineImage | .image | .other =>
    header n.props ++ attributesMember n.props ++
      textMember "title" (n.title.map RichText.plainText)

def payload (n : Node) : Json.Members :=
  match body n with
  | .nothing => []
  | .blocks ns => [("blocks", .arr (ns.map fun b => .obj (record b)))]
  | .inline key parts => [(key, inlineValue record parts)]
  | .list items => [("items", .arr (items.map item))]

def trailing (p : Properties) : Json.Members :=
  match p.kind with
  | .paragraph | .unorderedList | .inlineQuoted => []
  | .document | .preamble | .section | .inlineAnchor | .inlineImage | .image | .other =>
    textMember "alt" p.alt ++ textMember "target" p.target ++ textMember "type" p.subType ++
      textMember "id" p.id ++ textMember "role" p.role ++ textMember "reftext" p.reftext ++
      Json.member? "level" Json.ofInt64 (p.level.filter (· ≠ 0))

theorem record_eq (n : Node) : record n = leading n ++ payload n ++ trailing n.props := by
  obtain ⟨p, title, content, text, blocks, items⟩ := n
  rw [record, convert]
  cases hk : p.kind with
  | paragraph =>
      simp [leading, payload, body, trailing, hk, paragraphRecord, value_decode]
  | unorderedList =>
      simp [leading, payload, body, trailing, hk, listRecord, value_convertItems?]
  | inlineQuoted => simp [leading, payload, body, trailing, hk, spanRecord, value_decode]
  | document | preamble | «section» | inlineAnchor | inlineImage | image | other =>
      cases blocks with
      | some ns =>
          simp [leading, payload, body, trailing, hk, generalRecord, blocksMember,
            value_convertAll]
      | none =>
          cases content with
          | some t =>
              simp [leading, payload, body, trailing, hk, generalRecord, contentMember,
                value_decodeRich]
          | none => simp [leading, payload, body, trailing, hk, generalRecord, contentMember]

end DocTree.Plain
