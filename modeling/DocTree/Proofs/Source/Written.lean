import DocTree.Proofs.Source.Shape
import DocTree.Proofs.Visited

/-!
What is written of a document tree. The value has the shape of the tree, and is free of doubles if
the attributes in the tree are. Where the tree was decoded from a value, what is written of it
repeats no key and nests no deeper than that value did.
-/

namespace DocTree

open Json (Fits)
open Json.RecordShape (filled_of_ofJson? mem_elements_of_given?)
open RichText (segmentsOf)
open Segment (nodes)

/-- The nodes directly inside the value of a field. -/
def NodeField.children : (f : NodeField) → f.Value → List Node
  | .title, t | .content, t | .text, t => nodes (segmentsOf t)
  | .blocks, ns | .items, ns => ns.getD []
  | .nodeName, _ | .context, _ | .alt, _ | .target, _ | .subType, _ | .id, _ | .role, _
  | .reftext, _ | .level, _ | .attributes, _ | .location, _ => []

namespace Node

/-- The nodes directly inside a node, in whatever field they stand. -/
def children (n : Node) : List Node :=
  shape.fields.flatMap fun (f : NodeField) => f.children (n.fields f)

theorem mem_children {n m : Node} :
    m ∈ n.children ↔ ∃ f : NodeField, m ∈ f.children (n.fields f) := by
  rw [children, List.mem_flatMap]
  exact ⟨fun ⟨f, _, hm⟩ => ⟨f, hm⟩, fun ⟨f, hm⟩ => ⟨f, lawful_shape.complete f, hm⟩⟩

theorem sizeOf_lt_of_mem_children (n : Node) : ∀ m ∈ n.children, sizeOf m < sizeOf n := by
  intro m hm
  obtain ⟨f, hm⟩ := mem_children.mp hm
  obtain ⟨p, title, content, text, blocks, items⟩ := n
  simp only [Node.mk.sizeOf_spec]
  cases f with
  | title | content | text =>
      have := sizeOf_lt_of_mem_content _ hm
      simp only [fields, Equiv.coe_fn_mk] at this
      omega
  | blocks | items =>
      have := sizeOf_lt_of_mem_blocks _ hm
      simp only [fields, Equiv.coe_fn_mk] at this
      omega
  | nodeName | context | alt | target | subType | id | role | reftext | level | attributes
  | location => cases hm

/-- From a node to the nodes directly inside it. -/
def containment : Descent Node where
  next := children
  wellFounded := Descent.wellFounded_of_sizeOf_lt sizeOf_lt_of_mem_children

/-- No node of the tree has a double anywhere in its attributes. -/
def FloatFree (n : Node) : Prop :=
  ∀ m ∈ containment.preorder n, ∀ members, m.props.attributes = some members →
    (Json.obj members).FloatFree

theorem floatFree_iff {n : Node} :
    n.FloatFree ↔
      (∀ members, n.props.attributes = some members → (Json.obj members).FloatFree) ∧
        ∀ m ∈ n.children, m.FloatFree :=
  containment.forall_mem_preorder_iff

theorem listToJson_eq (ns : List Node) : listToJson ns = ns.map toJson := by
  induction ns with
  | nil => rfl
  | cons n rest ih => rw [listToJson, ih, List.map_cons]

theorem segmentsToJson_eq (parts : List Segment) :
    segmentsToJson parts = parts.map segmentToJson := by
  induction parts with
  | nil => rfl
  | cons part rest ih => rw [segmentsToJson, ih, List.map_cons]

end Node

open Node (fields richToJson listToJson segmentToJson listToJson_eq segmentsToJson_eq)

section shape

theorem optionally_map {α : Type} {R : α → Json → Prop} {toJson : α → Json}
    (h : ∀ a, R a (toJson a)) (x : Option α) : Optionally R x (x.map toJson) := by
  cases x with
  | none => exact .absent
  | some a => exact .present (h a)

theorem Location.hasShape_toJson (l : Location) : l.HasShape l.toJson := by
  rw [toJson_eq]
  exact .record lawful_shape.given?_written (optionally_map (fun _ => .int rfl) l.line)
    (optionally_map .str l.file)

theorem RichText.optionally_toJson {t : Option RichText}
    (h : ∀ m ∈ nodes (segmentsOf t), m.HasShape m.toJson) :
    Optionally RichText.HasShape t (t.map richToJson) := by
  cases t with
  | none => exact .absent
  | some t =>
      cases t with
      | plain s => exact .present (.plain s)
      | segments parts =>
          refine .present (.segments ?_)
          rw [segmentsToJson_eq, List.forall₂_map_right_iff, List.forall₂_same]
          intro part hpart
          cases part with
          | text s => exact .text s
          | node m => exact .node (h m (Segment.mem_nodes.mpr hpart))

theorem Node.optionally_listToJson {ns : Option (List Node)}
    (h : ∀ m ∈ ns.getD [], m.HasShape m.toJson) :
    Optionally ListHasShape ns (ns.map fun ns => .arr (listToJson ns)) := by
  cases ns with
  | none => exact .absent
  | some ns =>
      refine .present (.arr ?_)
      rw [listToJson_eq, List.forall₂_map_right_iff, List.forall₂_same]
      exact h

/-- What is written of a tree has the shape of the tree. -/
theorem Node.hasShape_toJson (n : Node) : n.HasShape n.toJson := by
  induction n using containment.induction with
  | step n ih =>
      have inside (f : NodeField) : ∀ m ∈ f.children (n.fields f), m.HasShape m.toJson :=
        fun m hm => ih m (mem_children.mpr ⟨f, hm⟩)
      rw [toJson_eq]
      exact .record lawful_shape.given?_written rfl (.inl rfl)
        (RichText.optionally_toJson (inside .title)) (RichText.optionally_toJson (inside .content))
        (RichText.optionally_toJson (inside .text)) (optionally_listToJson (inside .blocks))
        (optionally_listToJson (inside .items)) (optionally_map .str n.props.alt)
        (optionally_map .str n.props.target) (optionally_map .str n.props.subType)
        (optionally_map .str n.props.id) (optionally_map .str n.props.role)
        (optionally_map .str n.props.reftext) (optionally_map (fun _ => .int rfl) n.props.level)
        (optionally_map .obj n.props.attributes)
        (optionally_map Location.hasShape_toJson n.props.location)

end shape

section floats

theorem RichText.floatFree_toJson {t : RichText}
    (h : ∀ m ∈ nodes t.toSegments, m.toJson.FloatFree) : (richToJson t).FloatFree := by
  cases t with
  | plain s => trivial
  | segments parts =>
      rw [richToJson, segmentsToJson_eq]
      refine Json.floatFreeList_iff.mpr (List.forall_mem_map.mpr fun part hpart => ?_)
      cases part with
      | text s => trivial
      | node m => exact h m (Segment.mem_nodes.mpr hpart)

theorem NodeField.floatFree_encode {n : Node}
    (hn : ∀ members, n.props.attributes = some members → (Json.obj members).FloatFree)
    (h : ∀ m ∈ n.children, m.toJson.FloatFree) (f : NodeField) {w : Json}
    (hw : f.encode (n.fields f) = some w) : w.FloatFree := by
  have inside : ∀ m ∈ f.children (n.fields f), m.toJson.FloatFree :=
    fun m hm => h m (Node.mem_children.mpr ⟨f, hm⟩)
  cases f with
  | nodeName | context =>
      cases hw
      trivial
  | title | content | text =>
      obtain ⟨t, ht, rfl⟩ := Option.map_eq_some_iff.mp hw
      rw [ht] at inside
      exact RichText.floatFree_toJson inside
  | blocks | items =>
      obtain ⟨ns, hns, rfl⟩ := Option.map_eq_some_iff.mp hw
      rw [hns] at inside
      rw [listToJson_eq]
      exact Json.floatFreeList_iff.mpr (List.forall_mem_map.mpr inside)
  | alt | target | subType | id | role | reftext | level =>
      obtain ⟨_, _, rfl⟩ := Option.map_eq_some_iff.mp hw
      trivial
  | attributes =>
      obtain ⟨members, hmembers, rfl⟩ := Option.map_eq_some_iff.mp hw
      exact hn members hmembers
  | location =>
      obtain ⟨l, _, rfl⟩ := Option.map_eq_some_iff.mp hw
      rw [Location.toJson_eq]
      refine Location.lawful_shape.floatFree_written fun f w hw => ?_
      cases f <;> obtain ⟨_, _, rfl⟩ := Option.map_eq_some_iff.mp hw <;> trivial

theorem Node.floatFree_toJson {n : Node} (h : n.FloatFree) : n.toJson.FloatFree := by
  induction n using containment.induction with
  | step n ih =>
      obtain ⟨hown, hinside⟩ := floatFree_iff.mp h
      rw [toJson_eq]
      exact lawful_shape.floatFree_written fun f w hw =>
        f.floatFree_encode hown (fun m hm => ih m hm (hinside m hm)) hw

end floats

section fits

theorem decode_of_optional? {α : Type} {decode : Json → Option α} {v : Json} {a : α}
    (h : optional? decode v = some (some a)) : decode v = some a := by
  by_cases hv : v = .null
  · subst hv
    cases h
  · rw [optional?.eq_2 _ _ hv] at h
    obtain ⟨_, ha, hsome⟩ := Option.map_eq_some_iff.mp h
    rw [ha, Option.some.inj hsome]

theorem Location.fits_toJson (l : Location) : l.toJson.Fits 1 := by
  rw [toJson_eq]
  refine lawful_shape.fits_written fun f w hw => ?_
  cases f <;> obtain ⟨_, _, rfl⟩ := Option.map_eq_some_iff.mp hw <;> exact ⟨trivial, Nat.le_refl 0⟩

theorem Location.depth_pos_of_ofJson? {l : Location} {v : Json} (h : ofJson? v = some l) :
    0 < v.depth := by
  cases v with
  | null | bool _ | num _ | str _ => cases h
  | arr _ | obj _ => exact Nat.succ_pos _

/-- What is written of a decoded field fits into the value that it was decoded from, if this is so
for inline content and for lists of nodes. -/
theorem NodeField.fits_encode {v : Json}
    (hrich : ∀ t, RichText.ofJson? v = some t → (richToJson t).Fits v.depth)
    (hnodes : ∀ ns, Node.nodes? v = some ns → (Json.arr (listToJson ns)).Fits v.depth)
    (f : NodeField) {x : f.Value} (hx : f.decode v = some x) {w : Json}
    (hw : f.encode x = some w) : w.Fits v.depth := by
  cases f with
  | nodeName | context =>
      cases hw
      exact ⟨trivial, Nat.zero_le _⟩
  | title | content | text =>
      obtain ⟨t, rfl, rfl⟩ := Option.map_eq_some_iff.mp hw
      rw [NodeField.decode, Node.optionalRich?_eq] at hx
      exact hrich t (decode_of_optional? hx)
  | blocks | items =>
      obtain ⟨ns, rfl, rfl⟩ := Option.map_eq_some_iff.mp hw
      rw [NodeField.decode, Node.optionalNodes?_eq] at hx
      exact hnodes ns (decode_of_optional? hx)
  | alt | target | subType | id | role | reftext | level =>
      obtain ⟨_, _, rfl⟩ := Option.map_eq_some_iff.mp hw
      exact ⟨trivial, Nat.zero_le _⟩
  | attributes =>
      obtain ⟨members, rfl, rfl⟩ := Option.map_eq_some_iff.mp hw
      have hmembers := decode_of_optional? hx
      cases v with
      | null | bool _ | num _ | str _ | arr _ => cases hmembers
      | obj given =>
          cases hmembers
          exact ⟨Json.uniqueKeys_mergeRepeats (.obj given), Json.depth_mergeRepeats_le (.obj given)⟩
  | location =>
      obtain ⟨l, rfl, rfl⟩ := Option.map_eq_some_iff.mp hw
      exact l.fits_toJson.mono (Location.depth_pos_of_ofJson? (decode_of_optional? hx))

namespace Node

theorem fits_encode_default (f : NodeField) {w : Json}
    (hw : f.encode ((default : Node).fields f) = some w) (d : Nat) : w.Fits d := by
  cases f <;> cases hw <;> exact ⟨trivial, Nat.zero_le _⟩

theorem fits_toJson_of_elements {n : Node} {v : Json} (h : ofJson? v = some n)
    (hrich : ∀ w ∈ v.elements, ∀ t, RichText.ofJson? w = some t → (richToJson t).Fits w.depth)
    (hnodes : ∀ w ∈ v.elements, ∀ ns, nodes? w = some ns →
      (Json.arr (listToJson ns)).Fits w.depth) :
    n.toJson.Fits v.depth := by
  rw [ofJson?_eq] at h
  obtain ⟨given, hgiven, hholds⟩ := filled_of_ofJson? lawful_shape h
  have hdepth : v.depth = v.depth - 1 + 1 := by
    cases v with
    | null | bool _ | num _ | str _ => cases hgiven
    | arr _ | obj _ => rfl
  rw [toJson_eq, hdepth]
  refine lawful_shape.fits_written fun f w hw => ?_
  have hf := hholds f
  cases hu : given f with
  | none =>
      rw [hu] at hf
      rw [hf.2] at hw
      exact fits_encode_default f hw _
  | some u =>
      rw [hu] at hf
      have hmem := mem_elements_of_given? hgiven hu
      have hlt := Json.depth_lt_of_mem_elements hmem
      exact (f.fits_encode (hrich u hmem) (hnodes u hmem) hf hw).mono (Nat.le_sub_one_of_lt hlt)

theorem fits_listToJson {d : Nat} {items : List Json}
    (h : ∀ w ∈ items, ∀ n, ofJson? w = some n → n.toJson.Fits d) {ns : List Node}
    (hns : list? items = some ns) : (Json.arr (listToJson ns)).Fits (d + 1) := by
  have hfits : List.Forall₂ (fun n w => n.toJson.Fits d ∧ ofJson? w = some n) ns items :=
    (list?_eq_some_iff fun w hw n => ⟨fun hn => ⟨h w hw n hn, hn⟩, And.right⟩).mp hns
  rw [listToJson_eq]
  exact Json.fits_arr (List.forall_mem_map.mpr ((List.forall₂_and_left _ _).mp hfits).1)

theorem fits_segmentToJson {d : Nat} {w : Json} (h : ∀ n, ofJson? w = some n → n.toJson.Fits d)
    {part : Segment} (hpart : segment? w = some part) : (segmentToJson part).Fits d := by
  cases w with
  | str s =>
      cases hpart
      exact ⟨trivial, Nat.zero_le _⟩
  | null | bool _ | num _ | arr _ | obj _ =>
      simp only [segment?, Option.map_eq_some_iff] at hpart
      obtain ⟨n, hn, rfl⟩ := hpart
      exact h n hn

theorem fits_segmentsToJson {d : Nat} {items : List Json}
    (h : ∀ w ∈ items, ∀ n, ofJson? w = some n → n.toJson.Fits d) {parts : List Segment}
    (hparts : segments? items = some parts) : (richToJson (.segments parts)).Fits (d + 1) := by
  have hfits : List.Forall₂
      (fun part w => (segmentToJson part).Fits d ∧ segment? w = some part) parts items :=
    (segments?_eq_some_iff fun w hw _ =>
      ⟨fun hpart => ⟨fits_segmentToJson (h w hw) hpart, hpart⟩, And.right⟩).mp hparts
  rw [richToJson, segmentsToJson_eq]
  exact Json.fits_arr (List.forall_mem_map.mpr ((List.forall₂_and_left _ _).mp hfits).1)

/-- What is written of a tree, of inline content or of nodes fits into the value that they were
decoded from; the induction is on that value. -/
theorem fits_of_decoded (v : Json) :
    (∀ n, ofJson? v = some n → n.toJson.Fits v.depth) ∧
      (∀ t, RichText.ofJson? v = some t → (richToJson t).Fits v.depth) ∧
      ∀ ns, nodes? v = some ns → (Json.arr (listToJson ns)).Fits v.depth := by
  induction v using Json.induction with
  | h v ih =>
      refine ⟨fun n hn => ?_, fun t ht => ?_, fun ns hns => ?_⟩
      · exact fits_toJson_of_elements hn (fun w hw => (ih w hw).2.1) fun w hw => (ih w hw).2.2
      · cases v with
        | str s =>
            cases ht
            exact ⟨trivial, Nat.le_refl 0⟩
        | arr items =>
            rw [RichText.ofJson?_arr] at ht
            obtain ⟨parts, hparts, rfl⟩ := Option.map_eq_some_iff.mp ht
            refine fits_segmentsToJson (fun w hw n hn => ?_) hparts
            exact ((ih w hw).1 n hn).mono (Json.depthList_le_iff.mp (Nat.le_refl _) w hw)
        | null | bool _ | num _ | obj _ => cases ht
      · cases v with
        | arr items =>
            refine fits_listToJson (fun w hw n hn => ?_) hns
            exact ((ih w hw).1 n hn).mono (Json.depthList_le_iff.mp (Nat.le_refl _) w hw)
        | null | bool _ | num _ | str _ | obj _ => cases hns

end Node

end fits

end DocTree
