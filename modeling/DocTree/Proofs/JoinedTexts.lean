import DocTree.Proofs.Mdast.Correspondence
import DocTree.Proofs.Mdast.Rewritten
import DocTree.Proofs.Plain.Tree
import Mathlib.Data.List.Chain

/-!
Neighbouring texts. Decoding inline content joins the texts that stand next to each other, and a
node in it never becomes a bare text, so no two texts are neighbours in a converted tree. This holds
of the inline values of plain trees, of the texts of items, and of the children in nested Mdast
trees.
-/

namespace DocTree

open Mdast (isObject under)

/-- No two neighbours in a list are both of a kind. -/
def Separated {α : Type} (p : α → Prop) (as : List α) : Prop :=
  as.IsChain fun a b => ¬(p a ∧ p b)

section separated

variable {α β : Type} {p : α → Prop}

theorem Separated.map {q : β → Prop} {f : α → β} {as : List α} (h : Separated p as)
    (hf : ∀ a, q (f a) → p a) : Separated q (as.map f) := by
  rw [Separated, List.isChain_map]
  exact List.IsChain.imp (fun a b hab hq => hab ⟨hf a hq.1, hf b hq.2⟩) h

theorem Separated.cons {a : α} {as : List α} (ha : ¬p a) (h : Separated p as) :
    Separated p (a :: as) :=
  List.isChain_cons.mpr ⟨fun _ _ hab => ha hab.1, h⟩

end separated

namespace Fragment

def IsLeaf (f : Fragment) : Prop := ∃ s, f = .leaf s

theorem separated_mergeLeaves (parts : List Fragment) :
    Separated IsLeaf (mergeLeaves parts) := by
  induction parts with
  | nil => exact .nil
  | cons f rest ih =>
      cases f with
      | node _ | sequence _ | other _ =>
          rw [mergeLeaves]
          · refine ih.cons ?_
            rintro ⟨s, hs⟩
            cases hs
          · intro s hs
            cases hs
      | leaf s =>
          rw [mergeLeaves]
          split
          · next t more h =>
              -- The joined text has the neighbour that its second part had.
              rw [h, Separated, List.isChain_cons] at ih
              refine List.isChain_cons.mpr ⟨fun g hg hboth => ?_, ih.2⟩
              exact ih.1 g hg ⟨⟨t, rfl⟩, hboth.2⟩
          · next h =>
              refine List.isChain_cons.mpr ⟨fun g hg hboth => ?_, ih⟩
              obtain ⟨t, rfl⟩ := hboth.2
              obtain ⟨more, hmore⟩ := List.head?_eq_some_iff.mp hg
              exact h t more hmore

end Fragment

def Segment.IsText (part : Segment) : Prop := ∃ s, part = .text s

theorem Segment.separated_merge (parts : List Segment) : Separated IsText (merge parts) := by
  -- Joining is seen from the fragments here, which are leaves where the segments are texts.
  have h := Fragment.separated_mergeLeaves (parts.map (fragment fun _ => []))
  rw [mergeLeaves_map_fragment, Separated, List.isChain_map] at h
  refine h.imp fun p q hpq hboth => hpq ?_
  obtain ⟨⟨s, rfl⟩, ⟨t, rfl⟩⟩ := hboth
  exact ⟨⟨s, rfl⟩, ⟨t, rfl⟩⟩

namespace Json

def IsText (v : Json) : Prop := ∃ s, v = .str s

/-- The value of inline content in which texts are joined: one text, one record, or texts and
records in an array that is not for a single one of them. -/
inductive IsJoined : Json → Prop where
  | text (s : String) : IsJoined (.str s)
  | record (members : Members) : IsJoined (.obj members)
  | mixed {vs : List Json} (hlength : vs.length ≠ 1) (hparts : ∀ v ∈ vs, IsText v ∨ isObject v)
      (hseparated : Separated IsText vs) : IsJoined (.arr vs)

/-- The value under a key, in a list that is empty where there is none. -/
def valuesUnder (key : String) : Json → List Json
  | .obj members => (members.lookup key).toList
  | _ => []

/-- The texts of the items in a record. -/
def itemTexts (v : Json) : List Json := (under "items" v).flatMap (valuesUnder "text")

theorem itemTexts_eq_map {members : Members} {items : List Node} {item : Node → Json}
    (text : Node → Json) (hitems : members.lookup "items" = some (.arr (items.map item)))
    (htext : ∀ i, valuesUnder "text" (item i) = [text i]) :
    itemTexts (.obj members) = items.map text := by
  have hunder : under "items" (.obj members) = items.map item := by
    rw [under, hitems]
    rfl
  rw [itemTexts, hunder, List.flatMap_map, List.map_eq_flatMap]
  exact List.flatMap_congr fun i _ => htext i

end Json

open Json (IsJoined itemTexts itemTexts_eq_map valuesUnder)
open RichText (segmentsOf)

theorem Segment.isJoined_inlineValue (record : Node → Json.Members) (parts : List Segment) :
    IsJoined (inlineValue record parts) := by
  rw [inlineValue]
  split
  · next part _ =>
      cases part with
      | text s => exact .text s
      | node n => exact .record (record n)
  · next hlength =>
      refine .mixed ?_ ?_ ?_
      · rw [List.length_map]
        intro h
        obtain ⟨part, hpart⟩ := List.length_eq_one_iff.mp h
        exact hlength part hpart
      · refine List.forall_mem_map.mpr fun part _ => ?_
        cases part with
        | text s => exact .inl ⟨s, rfl⟩
        | node n => exact .inr rfl
      · refine (separated_merge parts).map fun part hpart => ?_
        obtain ⟨s, hs⟩ := hpart
        cases part with
        | text t => exact ⟨t, rfl⟩
        | node n => cases hs

namespace Plain

/-- The inline values of a record: its content, its text, and the texts of its items. -/
def inlineValues (v : Json) : List Json :=
  valuesUnder "content" v ++ valuesUnder "text" v ++ itemTexts v

/-- All inline values in a plain tree have their texts joined. -/
def TextsJoined (tree : Json) : Prop :=
  ∀ v ∈ records .textFirst tree, ∀ w ∈ inlineValues v, IsJoined w

theorem isJoined_of_mem_inlineValues (n : Node) :
    ∀ w ∈ inlineValues (.obj (record n)), IsJoined w := by
  rw [inlineValues, valuesUnder, valuesUnder, lookup_record n (by decide),
    lookup_record n (by decide), itemTexts, under_record n (by decide), ← itemTexts, payload]
  cases hb : body n with
  | nothing =>
      intro w hw
      cases hw
  | blocks ns => simp [itemTexts, under, Json.lookup_cons]
  | inline key parts =>
      have hjoined := Segment.isJoined_inlineValue record parts
      rcases key_of_body_inline hb with rfl | rfl <;>
        simpa [itemTexts, under, Json.lookup_cons] using hjoined
  | list items =>
      have htexts : itemTexts (.obj [("items", .arr (items.map item))]) =
          items.map fun i => Segment.inlineValue record (segmentsOf i.text) :=
        itemTexts_eq_map _ rfl fun i => rfl
      change ∀ w ∈ itemTexts _, IsJoined w
      rw [htexts]
      exact List.forall_mem_map.mpr fun i _ =>
        Segment.isJoined_inlineValue record (segmentsOf i.text)

theorem textsJoined_conversion (n : Node) : TextsJoined (conversion n).tree := by
  intro v hv
  change v ∈ records .textFirst (.obj (record n)) at hv
  rw [records_eq] at hv
  obtain ⟨m, _, rfl⟩ := List.mem_map.mp hv
  exact isJoined_of_mem_inlineValues m

end Plain

namespace Mdast

variable {o : Options} {v : Json}

/-- The texts of items have their texts joined, anywhere in a tree. -/
def ItemTextsJoined (tree : Json) : Prop :=
  ∀ v ∈ treeNodes tree, ∀ w ∈ itemTexts v, IsJoined w

/-- No list of children has two neighbouring texts, anywhere in a tree. -/
def ChildTextsSeparated (tree : Json) : Prop :=
  ∀ v ∈ treeNodes tree, Separated (fun w => type? w = some "text") (under "children" v)

theorem Piece.isJoined_of_mem_itemTexts (h : Piece o v) : ∀ w ∈ itemTexts v, IsJoined w := by
  cases h with
  | text s => exact nofun
  | heading p parts => exact nofun
  | record n =>
      have hlookup : (Mdast.record o n).lookup "items" = (payload o n).lookup "items" :=
        lookup_record o n (by decide) (by decide)
      rw [payload] at hlookup
      cases hb : n.body with
      | nothing | flow _ | titled _ _ | code _ =>
          rw [hb] at hlookup
          simp [itemTexts, under, hlookup, Json.lookup_cons]
      | list items =>
          rw [hb] at hlookup
          have htexts := itemTexts_eq_map
            (fun i => i.text.elim (.str "") fun t => inlineValue o t.toSegments)
            hlookup fun i => rfl
          rw [htexts]
          refine List.forall_mem_map.mpr fun i _ => ?_
          cases i.text with
          | none => exact .text ""
          | some t => exact Segment.isJoined_inlineValue (Mdast.record o) t.toSegments

/-- The child that a segment becomes in a nested tree. -/
def nestedChild (o : Options) : Segment → Json
  | .text s => textNode s
  | .node n => .obj (record o n)

theorem childNodes_of_nested (hflat : o.flat = false) (parts : List Segment) :
    childNodes o parts = (Segment.merge parts).map (nestedChild o) := by
  rw [childNodes, List.map_eq_flatMap]
  refine List.flatMap_congr fun part _ => ?_
  cases part with
  | text s => rfl
  | node n => simp [opened, hflat, nestedChild]

theorem separated_childNodes (hflat : o.flat = false) (parts : List Segment) :
    Separated (fun w => type? w = some "text") (childNodes o parts) := by
  rw [childNodes_of_nested hflat]
  refine (Segment.separated_merge parts).map fun part hpart => ?_
  cases part with
  | text s => exact ⟨s, rfl⟩
  | node n => exact absurd hpart (isRecord_record o n).1

theorem Piece.separated_children (hflat : o.flat = false) (h : Piece o v) :
    Separated (fun w => type? w = some "text") (under "children" v) := by
  cases h with
  | text s => exact .nil
  | heading p parts => exact separated_childNodes hflat parts
  | record n =>
      rw [← children_eq_under, children]
      cases n.body with
      | nothing | list _ | code _ => exact .nil
      | flow parts => exact separated_childNodes hflat parts
      | titled title parts =>
          refine (separated_childNodes hflat parts).cons ?_
          exact Option.some_inj.not.mpr (show "heading" ≠ "text" by decide)

end Mdast

/-- Adjacent text is always joined: in the inline values of a plain tree, in the texts of items
under all options, and among the children of a nested Mdast tree. -/
theorem adjacent_texts_joined (n : Node) :
    Plain.TextsJoined (Plain.conversion n).tree ∧
      (∀ o, Mdast.ItemTextsJoined (Mdast.conversion o n).tree) ∧
      ∀ noAsciiDocData,
        Mdast.ChildTextsSeparated
          (Mdast.conversion { flat := false, noAsciiDocData } n).tree := by
  refine ⟨Plain.textsJoined_conversion n, fun o v hv => ?_, fun noAsciiDocData v hv => ?_⟩
  · exact (Mdast.piece_of_mem_treeNodes o n v hv).isJoined_of_mem_itemTexts
  · exact (Mdast.piece_of_mem_treeNodes _ n v hv).separated_children rfl

end DocTree
