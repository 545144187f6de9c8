import DocTree.Fragment.Normal
import DocTree.Proofs.Visited

/-!
Decoded inline content, seen from the segments it was decoded from. Joining texts commutes with
decoding, so every use of a decoded fragment is a pass over the joined segments.
-/

namespace DocTree

namespace Segment

/-- Joins every run of neighbouring texts into one text. -/
def merge : List Segment → List Segment
  | [] => []
  | .text s :: rest =>
    match merge rest with
    | .text t :: more => .text (s ++ t) :: more
    | merged => .text s :: merged
  | .node n :: rest => .node n :: merge rest

/-- The fragment that a segment is decoded to, where nodes have the given records. -/
def fragment (record : Node → Json.Members) : Segment → Fragment
  | .text s => .leaf s
  | .node n => .node (record n)

@[simp] theorem merge_map_node (ns : List Node) : merge (ns.map .node) = ns.map .node := by
  induction ns with
  | nil => rfl
  | cons n ns ih => simp only [List.map_cons, merge, ih]

theorem merge_text_text (s t : String) (rest : List Segment) :
    merge (.text s :: .text t :: rest) = merge (.text (s ++ t) :: rest) := by
  simp only [merge]
  cases merge rest with
  | nil => rfl
  | cons next more => cases next <;> simp only [String.append_assoc]

theorem merge_merge (parts : List Segment) : merge (merge parts) = merge parts := by
  induction parts with
  | nil => rfl
  | cons part rest ih =>
      cases part with
      | node n => simp only [merge, ih]
      | text s =>
          rw [merge]
          split
          · next t more h =>
              rw [h] at ih
              rw [← merge_text_text, merge, ih]
          · next h =>
              rw [merge, ih]
              split
              · next t more hm => exact absurd hm (h t more)
              · rfl

/-- Joining texts leaves the nodes between them alone. -/
@[simp] theorem nodes_merge (parts : List Segment) : nodes (merge parts) = nodes parts := by
  induction parts with
  | nil => rfl
  | cons part rest ih =>
      cases part with
      | node n => rw [merge, nodes_node, nodes_node, ih]
      | text s =>
          rw [nodes_text, ← ih, merge]
          cases merge rest with
          | nil => rfl
          | cons next more => cases next <;> rfl

theorem mergeLeaves_map_fragment (record : Node → Json.Members) (parts : List Segment) :
    Fragment.mergeLeaves (parts.map (fragment record)) = (merge parts).map (fragment record) := by
  induction parts with
  | nil => rfl
  | cons part rest ih =>
      cases part with
      | node n => simp only [List.map_cons, fragment, Fragment.mergeLeaves, ih, merge]
      | text s =>
          simp only [List.map_cons, fragment, Fragment.mergeLeaves, ih, merge]
          cases merge rest with
          | nil => rfl
          | cons next more => cases next <;> rfl

end Segment

namespace Fragment

theorem value_normalizeParts (flat : Bool) (parts : List Fragment) :
    (normalizeParts flat parts).value = parts.flatMap fun f => (f.normalize flat).value := by
  induction parts with
  | nil => rfl
  | cons f rest ih => simp [normalizeParts, ih]

theorem events_normalizeParts (flat : Bool) (parts : List Fragment) :
    (normalizeParts flat parts).events = parts.flatMap fun f => (f.normalize flat).events := by
  induction parts with
  | nil => rfl
  | cons f rest ih => simp [normalizeParts, ih]

/-- A single part that stands for itself normalizes like the sequence of it. -/
theorem normalize_ofParts (flat : Bool) (parts : List Fragment) :
    (ofParts parts).normalize flat = normalizeParts flat (mergeLeaves parts) := by
  rw [ofParts]
  split
  · next single h => simp [h, normalizeParts]
  · rfl

theorem toList_eq_map (parts : List Fragment) : toList parts = parts.map toJson := by
  induction parts with
  | nil => rfl
  | cons f rest ih => simp only [toList, ih, List.map_cons]

end Fragment

theorem Json.textOfItems_append (vs ws : List Json) :
    textOfItems (vs ++ ws) = textOfItems vs ++ textOfItems ws := by
  induction vs with
  | nil => simp [textOfItems]
  | cons v vs ih => simp only [List.cons_append, textOfItems, ih, String.append_assoc]

namespace Fragment

theorem textOfItems_mergeLeaves (parts : List Fragment) :
    Json.textOfItems (toList (mergeLeaves parts)) = Json.textOfItems (toList parts) := by
  induction parts with
  | nil => rfl
  | cons f rest ih =>
      cases f with
      | node _ | sequence _ | other _ => simp only [mergeLeaves, toList, Json.textOfItems, ih]
      | leaf s =>
          simp only [mergeLeaves, toList, Json.textOfItems, ← ih]
          cases mergeLeaves rest with
          | nil => rfl
          | cons next more =>
              cases next with
              | node _ | sequence _ | other _ => rfl
              | leaf t =>
                  simp only [toList, toJson, Json.textOfItems, Json.textContent,
                    String.append_assoc]

theorem textContent_ofParts (parts : List Fragment) :
    (ofParts parts).textContent = Json.textOfItems (toList parts) := by
  rw [← textOfItems_mergeLeaves]
  rw [ofParts]
  split
  · next single h =>
      simp [h, textContent, toList, Json.textOfItems]
  · rfl

end Fragment

namespace Segment

/-- The value of a segment, where nodes have the given records. -/
def value (record : Node → Json.Members) : Segment → Json
  | .text s => .str s
  | .node n => .obj (record n)

/-- The value of inline content that is not normalized. A single segment stands for itself. -/
def inlineValue (record : Node → Json.Members) (parts : List Segment) : Json :=
  match merge parts with
  | [part] => part.value record
  | merged => .arr (merged.map (value record))

theorem toList_map_fragment (record : Node → Json.Members) (parts : List Segment) :
    Fragment.toList (parts.map (fragment record)) = parts.map (value record) := by
  rw [Fragment.toList_eq_map, List.map_map]
  refine List.map_congr_left fun part _ => ?_
  cases part <;> rfl

theorem toJson_ofParts_fragments (record : Node → Json.Members) (parts : List Segment) :
    (Fragment.ofParts (parts.map (fragment record))).toJson = inlineValue record parts := by
  simp only [Fragment.ofParts, inlineValue, mergeLeaves_map_fragment]
  match merge parts with
  | [] => rfl
  | [part] => cases part <;> rfl
  | part :: next :: rest =>
    exact congrArg Json.arr (toList_map_fragment record (part :: next :: rest))

end Segment

end DocTree
