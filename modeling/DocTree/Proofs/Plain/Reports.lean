import DocTree.Proofs.Plain.Tree

/-!
The reports of a conversion, read off the tree that it gives. Every record without a shape of its
own has one report. The reports come in the order of a traversal that takes the blocks of a list
item before its text, whereas the tree has the text first; so they come in the order of the tree
as long as no item has reports in both of its parts, and otherwise they need not.
-/

namespace DocTree

theorem Descent.preorder_perm {α : Type} {d e : Descent α}
    (h : ∀ a, (d.next a).Perm (e.next a)) (a : α) : (d.preorder a).Perm (e.preorder a) := by
  induction a using d.induction with
  | step a ih =>
      rw [d.preorder_eq, e.preorder_eq]
      exact ((List.Perm.flatMap_left _ ih).trans ((h a).flatMap_right _)).cons a

namespace Plain

open Mdast (elements under isObject)
open Segment (nodes)

/-- The names of the nodes whose records have a shape of their own. -/
def shapedNames : List String :=
  ["document", "preamble", "section", "paragraph", "ulist", "inline_quoted"]

/-- What a record has to be reported with, by its name. -/
def reported? (v : Json) : Option Diagnostic :=
  match nameAndContext v with
  | (some name, some context) =>
    if name ∈ shapedNames then none else some (.unknownNodeKind context name)
  | _ => none

/-- The reports of the records of a tree, in the order of a traversal. -/
def reportsOf (order : ItemOrder) (v : Json) : List Diagnostic :=
  (records order v).filterMap reported?

theorem reported?_record (n : Node) : reported? (.obj (record n)) = unknown? n := by
  rw [reported?, nameAndContext_record, unknown?, Properties.kind]
  generalize n.props.nodeName = name
  by_cases h : name ∈ shapedNames
  · simp only [h, ite_true]
    simp only [shapedNames, List.mem_cons, List.not_mem_nil, or_false] at h
    rcases h with rfl | rfl | rfl | rfl | rfl | rfl <;> rfl
  · simp only [h, ite_false]
    simp only [shapedNames, List.mem_cons, List.not_mem_nil, or_false, not_or] at h
    have hkind : NodeKind.ofName name = .inlineAnchor ∨ NodeKind.ofName name = .inlineImage ∨
        NodeKind.ofName name = .image ∨ NodeKind.ofName name = .other := by
      unfold NodeKind.ofName
      split <;> simp_all
    rcases hkind with hk | hk | hk | hk <;> rw [hk]

theorem reportsOf_eq (order : ItemOrder) (v : Json) :
    reportsOf order v = (if isObject v then (reported? v).toList else []) ++
      (below order v).flatMap (reportsOf order) := by
  have hbelow : (below order v).flatMap (reportsOf order) =
      (((below order v).flatMap (treeParts order)).filter isObject).filterMap reported? := by
    rw [List.filter_flatMap, List.filterMap_flatMap]
    rfl
  rw [hbelow, reportsOf, records, treeParts_eq, List.filter_cons]
  split
  · rw [List.filterMap_cons]
    cases reported? v <;> rfl
  · rfl

theorem diagnostics_eq_walk (n : Node) :
    (conversion n).diagnostics = (walk n).filterMap unknown? := by
  have hreports (m : Node) : (reports m).filterMap Event.diagnostic? = (unknown? m).toList := by
    rw [reports]
    cases unknown? m <;> rfl
  rw [List.filterMap_eq_flatMap_toList]
  simp only [conversion, Conversion.ofTraced, Conversion.diagnostics, Traced.events_map,
    events_eq_walk, List.filterMap_flatMap, hreports]

theorem diagnostics_eq_reportsOf (n : Node) :
    (conversion n).diagnostics = reportsOf .blocksFirst (conversion n).tree := by
  have htree : (conversion n).tree = .obj (record n) := rfl
  rw [diagnostics_eq_walk, htree, reportsOf, records_eq, List.filterMap_map, visitedNodes,
    nodes_sourceParts_blocksFirst]
  exact List.filterMap_congr fun m _ => (reported?_record m).symm

theorem reportsOf_perm (order other : ItemOrder) (v : Json) :
    (reportsOf order v).Perm (reportsOf other v) := by
  have hbelow (w : Json) : (below order w).Perm (below other w) :=
    (List.Perm.flatMap_left _ fun _ _ => order.arrange_perm other _ _).append_left _
  exact ((Descent.preorder_perm hbelow v).filter isObject).filterMap reported?

/-- No item of a list in a tree has reports both in its text and in its blocks. -/
def ReportsApart (v : Json) : Prop :=
  ∀ r ∈ treeParts .textFirst v, ∀ item ∈ under "items" r,
    (under "text" item).flatMap (reportsOf .textFirst) = [] ∨
      (under "blocks" item).flatMap (reportsOf .textFirst) = []

theorem ReportsApart.of_mem_below {v w : Json} (h : ReportsApart v)
    (hw : w ∈ below .textFirst v) : ReportsApart w :=
  fun r hr => h r ((treeDescent .textFirst).mem_preorder_of_mem_next hw hr)

theorem reportsOf_blocksFirst {v : Json} (h : ReportsApart v) :
    reportsOf .blocksFirst v = reportsOf .textFirst v := by
  induction v using (treeDescent .textFirst).induction with
  | step v ih =>
      have ih : ∀ w ∈ below .textFirst v, reportsOf .blocksFirst w = reportsOf .textFirst w :=
        fun w hw => ih w hw (h.of_mem_below hw)
      have hself : v ∈ treeParts .textFirst v := by
        rw [treeParts_eq]
        exact List.mem_cons_self
      have hbelow : (below .blocksFirst v).flatMap (reportsOf .blocksFirst) =
          (below .blocksFirst v).flatMap (reportsOf .textFirst) := by
        refine List.flatMap_congr fun w hw => ih w ?_
        simpa only [below, List.mem_append, List.mem_flatMap, ItemOrder.mem_arrange] using hw
      have harrange : (below .blocksFirst v).flatMap (reportsOf .textFirst) =
          (below .textFirst v).flatMap (reportsOf .textFirst) := by
        simp only [below, List.flatMap_append, List.flatMap_assoc, ItemOrder.flatMap_arrange]
        refine congrArg _ (List.flatMap_congr fun item hitem => ?_)
        exact ItemOrder.arrange_eq_of_eq_nil .blocksFirst (h v hself item hitem) .textFirst
      rw [reportsOf_eq, reportsOf_eq, hbelow, harrange]

/-- The reports are those of the records of the tree, in the order that takes the blocks of an
item first. They are in the order of the tree where no item has reports in both parts. -/
theorem diagnostics_read_off_tree (n : Node) :
    (conversion n).diagnostics = reportsOf .blocksFirst (conversion n).tree ∧
      (conversion n).diagnostics.Perm (reportsOf .textFirst (conversion n).tree) ∧
      (ReportsApart (conversion n).tree →
        (conversion n).diagnostics = reportsOf .textFirst (conversion n).tree) := by
  have hdiagnostics := diagnostics_eq_reportsOf n
  refine ⟨hdiagnostics, ?_, fun h => ?_⟩
  · rw [hdiagnostics]
    exact reportsOf_perm .blocksFirst .textFirst _
  · rw [hdiagnostics, reportsOf_blocksFirst h]

/-- A list with one item, which has a link in its text and an image for its only block. -/
def linkAboveImage : Node :=
  { props := { nodeName := "ulist", context := "ulist" }
    items := some [{
      props := { nodeName := "list_item", context := "list_item" }
      text := some (.segments
        [.node { props := { nodeName := "inline_anchor", context := "anchor" } }])
      blocks := some [{ props := { nodeName := "image", context := "image" } }] }] }

/-- The link comes before the image in the tree and after it in the reports. -/
theorem diagnostics_not_in_tree_order :
    (conversion linkAboveImage).diagnostics ≠
      reportsOf .textFirst (conversion linkAboveImage).tree := by
  have hdiagnostics : (conversion linkAboveImage).diagnostics =
      [.unknownNodeKind "image" "image", .unknownNodeKind "anchor" "inline_anchor"] := rfl
  have hbelow : below .textFirst (conversion linkAboveImage).tree =
      [.obj (record { props := { nodeName := "inline_anchor", context := "anchor" } }),
        .obj (record { props := { nodeName := "image", context := "image" } })] := rfl
  have hreports : reportsOf .textFirst (conversion linkAboveImage).tree =
      [.unknownNodeKind "anchor" "inline_anchor", .unknownNodeKind "image" "image"] := by
    rw [reportsOf_eq, hbelow, List.flatMap_cons, List.flatMap_cons, reportsOf_eq, reportsOf_eq]
    rfl
  rw [hdiagnostics, hreports]
  intro h
  simp at h

end Plain

end DocTree
