import DocTree.Proofs.Mdast.Events
import DocTree.Proofs.Mdast.Text

/-!
Flat conversion as a rewriting of trees. Splicing replaces every `block` among children by what
its own children become; items of lists are rewritten inside but keep their blocks. The flat tree
is the spliced nested tree, although the flat conversion works from the inside out.
-/

namespace DocTree.Mdast

open RichText (segmentsOf)
open Segment (nodes)

mutual

/-- Splices below a value. The value itself stays in its place, be it a `block` or not. -/
def splice : Json → Json
  | .obj members => .obj (spliceMembers members)
  | .arr items => .arr (spliceEach items)
  | .null => .null
  | .bool b => .bool b
  | .num n => .num n
  | .str s => .str s

def spliceEach : List Json → List Json
  | [] => []
  | v :: rest => splice v :: spliceEach rest

/-- The children of a node are spliced. The items of a list, and the text and the blocks of an item,
are rewritten where they are. -/
def spliceMembers : Json.Members → Json.Members
  | [] => []
  | (key, v) :: rest =>
    (key,
      if key = "children" then spliceChildren v
      else if key = "items" ∨ key = "text" ∨ key = "blocks" then splice v
      else v) :: spliceMembers rest

def spliceChildren : Json → Json
  | .arr items => .arr (spliceAll items)
  | .obj members => .obj members
  | .null => .null
  | .bool b => .bool b
  | .num n => .num n
  | .str s => .str s

def spliceAll : List Json → List Json
  | [] => []
  | v :: rest => spliceChild v ++ spliceAll rest

/-- What stands for a child in a spliced list of children. -/
def spliceChild : Json → List Json
  | .obj members =>
    if Json.Members.string? "type" members = some wrapperType then spliceUnder members
    else [.obj (spliceMembers members)]
  | .arr items => [.arr (spliceEach items)]
  | .null => [.null]
  | .bool b => [.bool b]
  | .num n => [.num n]
  | .str s => [.str s]

/-- The spliced children of a node; none if it has no children. -/
def spliceUnder : Json.Members → List Json
  | [] => []
  | (key, v) :: rest => if key = "children" then spliceElements v else spliceUnder rest

def spliceElements : Json → List Json
  | .arr items => spliceAll items
  | .obj _ | .null | .bool _ | .num _ | .str _ => []

end

theorem spliceEach_eq (vs : List Json) : spliceEach vs = vs.map splice := by
  induction vs with
  | nil => rfl
  | cons v vs ih => rw [spliceEach, ih, List.map_cons]

theorem spliceAll_eq (vs : List Json) : spliceAll vs = vs.flatMap spliceChild := by
  induction vs with
  | nil => rfl
  | cons v vs ih => rw [spliceAll, ih, List.flatMap_cons]

theorem spliceUnder_eq (members : Json.Members) :
    spliceUnder members = (members.lookup "children").elim [] spliceElements := by
  induction members with
  | nil => rfl
  | cons m rest ih =>
      obtain ⟨key, v⟩ := m
      by_cases h : key = "children" <;> simp [spliceUnder, Json.lookup_cons, h, ih]

theorem spliceMembers_append (as bs : Json.Members) :
    spliceMembers (as ++ bs) = spliceMembers as ++ spliceMembers bs := by
  induction as with
  | nil => rfl
  | cons m rest ih => simp only [List.cons_append, spliceMembers, ih]

theorem spliceMembers_of_apart {members : Json.Members} (h : Apart members) :
    spliceMembers members = members := by
  induction members with
  | nil => rfl
  | cons m rest ih =>
      obtain ⟨key, v⟩ := m
      have hkey : key ∉ payloadKeys := h _ List.mem_cons_self
      simp only [payloadKeys, List.mem_cons, not_or] at hkey
      rw [spliceMembers, ih fun m hm => h m (List.mem_cons_of_mem _ hm)]
      simp [hkey]

section step

-- Two ways to convert that differ in whether children are flat.
variable {nested flat : Options} (hnested : nested.flat = false) (hflat : flat.flat = true)
  (hdata : nested.noAsciiDocData = flat.noAsciiDocData)

include hdata in
theorem leading_congr (p : Properties) : leading flat p = leading nested p := by
  simp only [leading, sourceMembers, hdata]

include hdata in
theorem trailing_congr (n : Node) : trailing flat n = trailing nested n := by
  simp only [trailing, sourceMembers, hdata]

include hdata in
theorem record_eq_splice {n : Node} (h : payload flat n = spliceMembers (payload nested n)) :
    record flat n = spliceMembers (record nested n) := by
  rw [record_eq, record_eq, spliceMembers, spliceMembers_append, spliceMembers_append,
    spliceMembers_of_apart (apart_leading _ _), spliceMembers_of_apart (apart_trailing _ _),
    leading_congr hdata, trailing_congr hdata, h]
  rfl

theorem children_eq_splice {n : Node} (h : payload flat n = spliceMembers (payload nested n)) :
    children flat n = spliceAll (children nested n) := by
  rw [payload, payload] at h
  rw [children, children]
  cases hb : n.body with
  | nothing | list _ | code _ => rfl
  | flow _ | titled _ _ =>
      simp only [hb, spliceMembers, spliceChildren, ite_true, List.cons.injEq, Prod.mk.injEq,
        Json.arr.injEq, true_and, and_true] at h
      exact h

theorem spliceUnder_record (n : Node) :
    spliceUnder (record nested n) = spliceAll (children nested n) := by
  rw [spliceUnder_eq, lookup_record _ n (by decide) (by decide)]
  rw [payload, children]
  cases n.body <;> rfl

include hnested hflat hdata in
theorem opened_eq_splice {n : Node} (h : payload flat n = spliceMembers (payload nested n)) :
    opened flat n = spliceAll (opened nested n) := by
  have hkept : opened nested n = [.obj (record nested n)] := by simp [opened, hnested]
  rw [hkept, spliceAll, spliceAll, List.append_nil, spliceChild, string?_type_record]
  by_cases hw : typeName n.props = wrapperType
  · simp only [opened, hflat, hw, and_self, ite_true]
    rw [spliceUnder_record, children_eq_splice h]
  · simp only [opened, hw, and_false, ite_false, Option.some.injEq]
    rw [record_eq_splice hdata h]

include hnested hflat hdata in
theorem childNodes_eq_splice {parts : List Segment}
    (h : ∀ n ∈ nodes parts, payload flat n = spliceMembers (payload nested n)) :
    childNodes flat parts = spliceAll (childNodes nested parts) := by
  rw [spliceAll_eq, childNodes, childNodes, List.flatMap_assoc]
  refine List.flatMap_congr fun part hpart => ?_
  cases part with
  | text s => rfl
  | node n =>
      rw [← Segment.mem_nodes, Segment.nodes_merge] at hpart
      rw [segmentNodes_node, segmentNodes_node, ← spliceAll_eq]
      exact opened_eq_splice hnested hflat hdata (h n hpart)

include hdata in
theorem inlineValue_eq_splice {parts : List Segment}
    (h : ∀ n ∈ nodes parts, payload flat n = spliceMembers (payload nested n)) :
    inlineValue flat parts = splice (inlineValue nested parts) := by
  have hpart : ∀ part ∈ Segment.merge parts,
      segmentValue flat part = splice (segmentValue nested part) := by
    intro part hpart
    cases part with
    | text s => rfl
    | node n =>
        rw [← Segment.mem_nodes, Segment.nodes_merge] at hpart
        exact congrArg Json.obj (record_eq_splice hdata (h n hpart))
  rw [inlineValue, inlineValue]
  split
  · next part hm => exact hpart part (by simp [hm])
  · rw [splice, spliceEach_eq, List.map_map]
    exact congrArg Json.arr (List.map_congr_left hpart)

include hdata in
theorem item_eq_splice {n : Node}
    (h : ∀ m ∈ nodes (segmentsOf n.text) ++ n.blocks.getD [],
      payload flat m = spliceMembers (payload nested m)) :
    item flat n = splice (item nested n) := by
  rw [List.forall_mem_append] at h
  have htext : (n.text.elim (.str "") fun t => inlineValue flat t.toSegments) =
      splice (n.text.elim (.str "") fun t => inlineValue nested t.toSegments) := by
    cases ht : n.text with
    | none => rfl
    | some t =>
        rw [ht] at h
        exact inlineValue_eq_splice hdata h.1
  have hblocks : (n.blocks.getD []).map (fun b => Json.obj (record flat b)) =
      spliceEach ((n.blocks.getD []).map fun b => .obj (record nested b)) := by
    rw [spliceEach_eq, List.map_map]
    exact List.map_congr_left fun b hb => congrArg Json.obj (record_eq_splice hdata (h.2 b hb))
  simp only [item, htext, hblocks]
  rfl

include hnested hflat hdata in
theorem payload_eq_splice (n : Node) :
    payload flat n = spliceMembers (payload nested n) := by
  induction n using Node.walk_induction with
  | step n ih =>
      -- A payload that is spliced for all nodes of a body makes their records and what they open to
      -- spliced as well, so nothing else is needed of these nodes.
      rw [payload, payload]
      cases hb : n.body with
      | nothing => rfl
      | flow parts =>
          rw [hb] at ih
          simp only [childNodes_eq_splice hnested hflat hdata ih]
          rfl
      | titled title parts =>
          rw [hb] at ih
          have htitle := childNodes_eq_splice hnested hflat hdata fun m hm =>
            ih m (List.mem_append_left _ hm)
          have hparts := childNodes_eq_splice hnested hflat hdata fun m hm =>
            ih m (List.mem_append_right _ hm)
          simp only [htitle, hparts]
          rfl
      | list items =>
          rw [hb] at ih
          have hitems : items.map (item flat) = spliceEach (items.map (item nested)) := by
            rw [spliceEach_eq, List.map_map]
            exact List.map_congr_left fun i hi =>
              item_eq_splice hdata fun m hm => ih m (List.mem_flatMap.mpr ⟨i, hi, hm⟩)
          simp only [hitems]
          rfl
      | code parts =>
          -- Code keeps the text of its nodes only, and that is the same under all options.
          have htext := segmentsText_congr flat nested parts
          rw [segmentsText, segmentsText] at htext
          simp only [htext]
          rfl

end step

/-- The flat tree of a document is its spliced nested tree, with the same data and diagnostics. -/
theorem flat_eq_splice (noAsciiDocData : Bool) (n : Node) :
    let nested := conversion { flat := false, noAsciiDocData } n
    let flat := conversion { flat := true, noAsciiDocData } n
    flat.tree = splice nested.tree ∧ flat.data = nested.data ∧
      flat.diagnostics = nested.diagnostics := by
  have hpayload : payload { flat := true, noAsciiDocData } n =
      spliceMembers (payload { flat := false, noAsciiDocData } n) :=
    payload_eq_splice (by rfl) (by rfl) (by rfl) n
  refine ⟨?_, ?_, ?_⟩
  · exact congrArg Json.obj (record_eq_splice (by rfl) hpayload)
  · rw [data_eq_walk, data_eq_walk]
  · rw [diagnostics_eq_walk, diagnostics_eq_walk]

end DocTree.Mdast
