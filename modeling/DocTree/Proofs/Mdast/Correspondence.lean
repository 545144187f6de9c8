import DocTree.Proofs.Mdast.Tree
import Mathlib.Data.List.Forall2

/-!
The nodes of a nested tree and the nodes of its source. Apart from text and synthesized headings,
the tree holds one record for every node that is visited outside of code, in the same order, with
the type and the position of that node.
-/

namespace DocTree

open Segment (nodes)

namespace Node

/-- The nodes that are visited below a node and have records of their own. Code keeps the text of
the nodes in it, but not the nodes. -/
def shown (n : Node) : List Node :=
  if n.props.kind = .inlineQuoted ∧ n.props.subType = some "monospaced" then [] else n.visited

theorem mem_visited_of_mem_shown {m n : Node} (h : m ∈ n.shown) : m ∈ n.visited := by
  rw [shown] at h
  split at h
  · cases h
  · exact h

def shownDescent : Descent Node where
  next := shown
  wellFounded := Descent.wellFounded_of_sizeOf_lt fun n _ h =>
    sizeOf_lt_of_mem_visited n _ (mem_visited_of_mem_shown h)

/-- The visited nodes that are not below code, in order. -/
def shownWalk (n : Node) : List Node := shownDescent.preorder n

theorem shownWalk_eq (n : Node) : n.shownWalk = n :: n.shown.flatMap shownWalk :=
  shownDescent.preorder_eq n

theorem shown_eq (n : Node) :
    n.shown =
      match n.body with
      | .code _ => []
      | body => body.visited := by
  by_cases hcode : n.props.kind = .inlineQuoted ∧ n.props.subType = some "monospaced"
  · simp [shown, body, hcode]
  · rw [shown, if_neg hcode, visited_eq]
    cases hb : n.body with
    | code parts => exact absurd (quoted_of_body_code hb) hcode
    | flow _ | titled _ _ | nothing | list _ => rfl

end Node

namespace Mdast

/-- A node of a tree that stands for a node of the source. -/
def IsRecord (v : Json) : Prop := type? v ≠ some "text" ∧ type? v ≠ some "heading"

instance : DecidablePred IsRecord := fun v =>
  inferInstanceAs (Decidable (type? v ≠ some "text" ∧ type? v ≠ some "heading"))

def records (v : Json) : List Json := (treeNodes v).filter IsRecord

/-- The position of the record of a node. Inline nodes and images have none. -/
def shownPosition? (p : Properties) : Option Json :=
  match p.kind with
  | .document | .preamble | .section | .paragraph | .unorderedList | .other =>
    p.location.bind fun l => l.line.map fun line => positionOnLine line l.file
  | .inlineQuoted | .inlineAnchor | .inlineImage | .image => none

/-- A value is the record of a node, as far as its type and its position go. -/
def Shows (n : Node) (v : Json) : Prop :=
  ∃ members, v = .obj members ∧ members.lookup "type" = some (.str (typeName n.props)) ∧
    members.lookup "position" = shownPosition? n.props

theorem typeName_ne {t : String} (p : Properties) (h : t = "text" ∨ t = "heading") :
    typeName p ≠ t := by
  intro e
  have hcolon : ':' ∉ t.toList := by rcases h with rfl | rfl <;> decide
  have e := fixedType?_of_typeName e hcolon
  cases hk : p.kind with
  | inlineQuoted =>
      simp only [fixedType?, hk] at e
      rcases h with rfl | rfl <;> split at e <;> simp at e
  | document | preamble | «section» | paragraph | unorderedList | inlineAnchor | inlineImage
  | image | other =>
      rcases h with rfl | rfl <;> simp [fixedType?, hk, wrapperType] at e

theorem lookup_position_sourceMembers (o : Options) (p : Properties) :
    (sourceMembers o p).lookup "position" = none := by
  rw [sourceMembers]
  split <;> simp [Json.lookup_cons]

theorem lookup_positionMember (p : Properties) :
    (positionMember p).lookup "position" =
      p.location.bind fun l => l.line.map fun line => positionOnLine line l.file := by
  rw [positionMember, Json.lookup_member?, if_pos rfl, position?_toJson]

theorem lookup_position_record (o : Options) (n : Node) :
    (record o n).lookup "position" = shownPosition? n.props := by
  have hleading : (leading o n.props).lookup "position" = none := by
    cases hk : n.props.kind <;>
      simp [leading, hk, lookup_position_sourceMembers, Json.lookup_cons]
  have hpayload : (payload o n).lookup "position" = none := by
    cases hb : n.body <;> simp [payload, hb, Json.lookup_cons]
  have hdetails : (details n).lookup "position" = none := by
    simp [details, textMember, List.lookup_append, Json.lookup_member?]
  have htrailing : (trailing o n).lookup "position" = shownPosition? n.props := by
    cases hk : n.props.kind with
    | document | preamble | other =>
        simp [trailing, shownPosition?, hk, List.lookup_append, hdetails, lookup_positionMember]
    | «section» | paragraph | unorderedList =>
        simp [trailing, shownPosition?, hk, lookup_positionMember]
    | inlineQuoted =>
        simp only [trailing, shownPosition?, hk]
        split
        · rfl
        · exact lookup_position_sourceMembers o n.props
    | inlineAnchor | inlineImage | image => simp [trailing, shownPosition?, hk]
  rw [record_eq, Json.lookup_cons, if_neg (by decide), List.lookup_append, List.lookup_append,
    hleading, hpayload, htrailing]
  rfl

theorem shows_record (o : Options) (n : Node) : Shows n (.obj (record o n)) := by
  refine ⟨record o n, rfl, ?_, lookup_position_record o n⟩
  rw [record_eq, Json.lookup_cons, if_pos rfl]

theorem records_eq (v : Json) :
    records v = (if IsRecord v then [v] else []) ++ (below v).flatMap records := by
  have hbelow : (below v).flatMap records = ((below v).flatMap treeNodes).filter IsRecord := by
    rw [List.filter_flatMap]
    rfl
  rw [hbelow, records, treeNodes_eq]
  by_cases h : IsRecord v <;> simp [h]

theorem isRecord_record (o : Options) (n : Node) : IsRecord (.obj (record o n)) := by
  have htype : type? (.obj (record o n)) = some (typeName n.props) := string?_type_record o n
  rw [IsRecord, htype, ne_eq, ne_eq, Option.some.injEq, Option.some.injEq]
  exact ⟨typeName_ne n.props (.inl rfl), typeName_ne n.props (.inr rfl)⟩

theorem records_textNode (s : String) : records (textNode s) = [] := by
  rw [records, treeNodes_textNode]
  rfl

theorem records_heading (p : Properties) (vs : List Json) :
    records (heading p vs) = vs.flatMap records := by
  rw [records_eq, below_heading]
  rfl

theorem records_childNodes {o : Options} (hflat : o.flat = false) (parts : List Segment) :
    (childNodes o parts).flatMap records =
      (nodes parts).flatMap fun n => records (.obj (record o n)) := by
  rw [← Segment.nodes_merge, childNodes]
  induction Segment.merge parts with
  | nil => rfl
  | cons part rest ih =>
      cases part with
      | text s => simp [records_textNode, ih]
      | node n => simp [opened, hflat, ih]

theorem records_record {o : Options} (hflat : o.flat = false) (n : Node) :
    records (.obj (record o n)) = n.shownWalk.map fun m => .obj (record o m) := by
  induction n using Node.walk_induction with
  | step n ih =>
      have hbelow : (below (.obj (record o n))).flatMap records =
          n.shown.flatMap fun m => records (.obj (record o m)) := by
        rw [below_record, Node.shown_eq]
        cases hb : n.body with
        | nothing | code _ => simp [children, hb, Node.Body.visited]
        | flow parts => simp [children, hb, Node.Body.visited, records_childNodes hflat]
        | titled title parts =>
            simp [children, hb, Node.Body.visited, records_heading, records_childNodes hflat]
        | list items => simp [List.flatMap_map]
      -- The nodes that are shown are visited, so the induction reaches them; code shows none.
      have hshown : n.shown.flatMap (fun m => records (.obj (record o m))) =
          n.shown.flatMap fun m => m.shownWalk.map fun m => .obj (record o m) := by
        refine List.flatMap_congr fun m hm => ih m ?_
        rw [← Node.visited_eq]
        exact Node.mem_visited_of_mem_shown hm
      rw [records_eq, hbelow, hshown, Node.shownWalk_eq, List.map_cons, List.map_flatMap,
        if_pos (isRecord_record o n)]
      rfl

/-- Nothing is lost and nothing is there twice: the records of a nested tree and the nodes that it
was made from are in order the same. -/
theorem forall₂_shows_records (noAsciiDocData : Bool) (n : Node) :
    List.Forall₂ Shows n.shownWalk
      (records (conversion { flat := false, noAsciiDocData } n).tree) := by
  have h : records (conversion { flat := false, noAsciiDocData } n).tree =
      n.shownWalk.map fun m => .obj (record { flat := false, noAsciiDocData } m) :=
    records_record rfl n
  rw [h, List.forall₂_map_right_iff, List.forall₂_same]
  intro m _
  exact shows_record _ m

end Mdast

end DocTree
