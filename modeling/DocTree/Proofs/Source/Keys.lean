import DocTree.Proofs.Source.RoundTrip
import DocTree.Source.Build

/-!
Keys in the attributes of a document tree. Attributes are maps, so no key is repeated in them, at
any depth. Trees that are read from a text are of this kind, and setting attributes keeps them so.
-/

namespace DocTree

open Json (uniqueKeysMembers_iff)

/-- A node in a field is an element of what is written of the field. -/
theorem NodeField.exists_encode_of_mem_children {f : NodeField} {x : f.Value} {m : Node}
    (h : m ∈ f.children x) : ∃ w, f.encode x = some w ∧ m.toJson ∈ w.elements := by
  cases f with
  | title | content | text =>
      cases x with
      | none => cases h
      | some t =>
          refine ⟨Node.richToJson t, rfl, ?_⟩
          have hpart : Segment.node m ∈ t.toSegments := Segment.mem_nodes.mp h
          cases t with
          | plain s => simp [RichText.toSegments] at hpart
          | segments parts =>
              rw [Node.richToJson, Node.segmentsToJson_eq]
              exact List.mem_map_of_mem (f := Node.segmentToJson) hpart
  | blocks | items =>
      cases x with
      | none => cases h
      | some ns =>
          refine ⟨.arr (Node.listToJson ns), rfl, ?_⟩
          rw [Node.listToJson_eq]
          exact List.mem_map_of_mem h
  | nodeName | context | alt | target | subType | id | role | reftext | level | attributes
  | location => cases h

namespace Node

/-- No node of the tree repeats a key anywhere in its attributes. -/
def UniqueKeys (n : Node) : Prop :=
  ∀ m ∈ containment.preorder n, ∀ members, m.props.attributes = some members →
    (Json.obj members).UniqueKeys

theorem uniqueKeys_iff {n : Node} :
    n.UniqueKeys ↔
      (∀ members, n.props.attributes = some members → (Json.obj members).UniqueKeys) ∧
        ∀ m ∈ n.children, m.UniqueKeys :=
  containment.forall_mem_preorder_iff

theorem UniqueKeys.of_mem_children {n m : Node} (h : n.UniqueKeys) (f : NodeField)
    (hm : m ∈ f.children (n.fields f)) : m.UniqueKeys :=
  (uniqueKeys_iff.mp h).2 m (mem_children.mpr ⟨f, hm⟩)

theorem UniqueKeys.attributes {n : Node} (h : n.UniqueKeys) :
    (Json.obj (n.props.attributes.getD [])).UniqueKeys := by
  cases hattributes : n.props.attributes with
  | none => exact ⟨List.nodup_nil, trivial⟩
  | some members => exact (uniqueKeys_iff.mp h).1 members hattributes

theorem uniqueKeys_of_toJson {n : Node} (h : n.toJson.UniqueKeys) : n.UniqueKeys := by
  induction n using containment.induction with
  | step n ih =>
      rw [toJson_eq] at h
      have hwritten := lawful_shape.forall_mem_written_iff.mp (uniqueKeysMembers_iff.mp h.2)
      refine uniqueKeys_iff.mpr ⟨?_, ?_⟩
      · intro members hmembers
        exact hwritten .attributes (.obj members) (congrArg (Option.map Json.obj) hmembers)
      · intro m hm
        obtain ⟨f, hf⟩ := mem_children.mp hm
        obtain ⟨w, hw, hmem⟩ := f.exists_encode_of_mem_children hf
        exact ih m hm ((hwritten f w hw).of_mem_elements hmem)

/-- The reader merges the occurrences of a key, so that no tree which it gives repeats one. -/
theorem uniqueKeys_of_parse {s : String} {n : Node} (h : parse s = .ok n) : n.UniqueKeys := by
  obtain ⟨v, -, hn⟩ := exists_json_of_parse h
  exact uniqueKeys_of_toJson ((fits_of_decoded v).1 n hn).keys

/-- A set attribute takes the place of the one that has its name. -/
theorem uniqueKeys_withAttribute {n : Node} (h : n.UniqueKeys) (name : String) {value : Json}
    (hvalue : value.UniqueKeys) : (n.withAttribute name value).UniqueKeys := by
  refine uniqueKeys_iff.mpr ⟨?_, (uniqueKeys_iff.mp h).2⟩
  intro members hmembers
  cases hmembers
  refine ⟨Json.Members.nodup_keys_set h.attributes.1 name value, uniqueKeysMembers_iff.mpr ?_⟩
  intro member hmember
  obtain hnew | hold := Json.Members.mem_set hmember
  · rw [hnew]
    exact hvalue
  · exact uniqueKeysMembers_iff.mp h.attributes.2 member hold

end Node

end DocTree
