import DocTree.Proofs.Source.Fields

/-!
The declared shape of a document tree as a relation between trees and JSON values, with one
constructor for each form that a value may take. Decoding finds a tree exactly where a value has
the shape of one, and it finds that tree.
-/

namespace DocTree

open Json (UniqueKeys)
open Json.RecordShape (Holds ofJson?_of_filled filled_of_ofJson?)

/-- What a field that may be missing is given: nothing or `null` for no value. -/
inductive Optionally {α : Type} (R : α → Json → Prop) : Option α → Option Json → Prop
  | absent : Optionally R none none
  | null : Optionally R none (some .null)
  | present {a : α} {v : Json} (h : R a v) : Optionally R (some a) (some v)

inductive IsText : String → Json → Prop
  | str (s : String) : IsText s (.str s)

inductive IsInt64 : Int64 → Json → Prop
  | int {i : Int64} {n : Json.Integer} (h : n.val = i.toInt) : IsInt64 i (.num (.int n))

inductive IsUInt64 : UInt64 → Json → Prop
  | int {i : UInt64} {n : Json.Integer} (h : n.val = i.toNat) : IsUInt64 i (.num (.int n))

inductive IsAttributes : Json.Members → Json → Prop
  | obj (members : Json.Members) : IsAttributes members (.obj members)

inductive Location.HasShape : Location → Json → Prop
  | record {l : Location} {v : Json} {given : LocationField → Option Json}
      (hgiven : Location.shape.given? v = some given)
      (line : Optionally IsUInt64 l.line (given .line))
      (file : Optionally IsText l.file (given .file)) : HasShape l v

mutual

inductive Node.HasShape : Node → Json → Prop
  | record {n : Node} {v : Json} {given : NodeField → Option Json}
      (hgiven : Node.shape.given? v = some given)
      (nodeName : given .nodeName = some (.str n.props.nodeName))
      (context : given .context = some (.str n.props.context) ∨
        given .context = none ∧ n.props.context = "")
      (title : Optionally RichText.HasShape n.title (given .title))
      (content : Optionally RichText.HasShape n.content (given .content))
      (text : Optionally RichText.HasShape n.text (given .text))
      (blocks : Optionally Node.ListHasShape n.blocks (given .blocks))
      (items : Optionally Node.ListHasShape n.items (given .items))
      (alt : Optionally IsText n.props.alt (given .alt))
      (target : Optionally IsText n.props.target (given .target))
      (subType : Optionally IsText n.props.subType (given .subType))
      (id : Optionally IsText n.props.id (given .id))
      (role : Optionally IsText n.props.role (given .role))
      (reftext : Optionally IsText n.props.reftext (given .reftext))
      (level : Optionally IsInt64 n.props.level (given .level))
      (attributes : Optionally IsAttributes n.props.attributes (given .attributes))
      (location : Optionally Location.HasShape n.props.location (given .location)) :
      Node.HasShape n v

inductive Node.ListHasShape : List Node → Json → Prop
  | arr {ns : List Node} {items : List Json} (h : List.Forall₂ Node.HasShape ns items) :
      Node.ListHasShape ns (.arr items)

inductive RichText.HasShape : RichText → Json → Prop
  | plain (s : String) : RichText.HasShape (.plain s) (.str s)
  | segments {parts : List Segment} {items : List Json}
      (h : List.Forall₂ Segment.HasShape parts items) :
      RichText.HasShape (.segments parts) (.arr items)

inductive Segment.HasShape : Segment → Json → Prop
  | text (s : String) : Segment.HasShape (.text s) (.str s)
  | node {n : Node} {v : Json} (h : Node.HasShape n v) : Segment.HasShape (.node n) v

end

section scalars

theorem text?_eq_some_iff {s : String} {v : Json} : text? v = some s ↔ IsText s v := by
  constructor
  · intro h
    cases v with
    | str t =>
        cases h
        exact .str s
    | null | bool _ | num _ | arr _ | obj _ => cases h
  · rintro ⟨⟩
    rfl

theorem toInt64?_eq_some_iff {n : Json.Integer} {i : Int64} :
    n.toInt64? = some i ↔ n.val = i.toInt := by
  have hlower := n.lower
  rw [Json.Integer.toInt64?]
  constructor
  · intro h
    split at h
    · next hupper =>
        cases h
        exact (Int64.toInt_ofInt_of_le hlower hupper).symm
    · cases h
  · intro h
    have hupper := Int64.toInt_lt i
    rw [if_pos (by rw [h]; exact hupper), h, Int64.ofInt_toInt]

theorem toUInt64?_eq_some_iff {n : Json.Integer} {i : UInt64} :
    n.toUInt64? = some i ↔ n.val = i.toNat := by
  have hupper := n.upper
  rw [Json.Integer.toUInt64?]
  constructor
  · intro h
    split at h
    · next hlower =>
        cases h
        rw [UInt64.toNat_ofNat_of_lt' (by simp only [UInt64.size]; omega),
          Int.toNat_of_nonneg hlower]
    · cases h
  · intro h
    rw [if_pos (by omega), h, Int.toNat_natCast, UInt64.ofNat_toNat]

theorem signed?_eq_some_iff {i : Int64} {v : Json} : signed? v = some i ↔ IsInt64 i v := by
  constructor
  · intro h
    cases v with
    | num n =>
        cases n with
        | int n => exact .int (toInt64?_eq_some_iff.mp h)
        | float _ => cases h
    | null | bool _ | str _ | arr _ | obj _ => cases h
  · rintro ⟨h⟩
    exact toInt64?_eq_some_iff.mpr h

theorem line?_eq_some_iff {i : UInt64} {v : Json} :
    LocationField.line? v = some i ↔ IsUInt64 i v := by
  constructor
  · intro h
    cases v with
    | num n =>
        cases n with
        | int n => exact .int (toUInt64?_eq_some_iff.mp h)
        | float _ => cases h
    | null | bool _ | str _ | arr _ | obj _ => cases h
  · rintro ⟨h⟩
    exact toUInt64?_eq_some_iff.mpr h

theorem attributes?_eq_some_iff {members : Json.Members} {v : Json} (hv : v.UniqueKeys) :
    attributes? v = some members ↔ IsAttributes members v := by
  constructor
  · intro h
    cases v with
    | obj ms =>
        have hmerge := Json.mergeRepeats_of_uniqueKeys hv
        rw [Json.mergeRepeats, Json.obj.injEq] at hmerge
        rw [attributes?, hmerge] at h
        cases h
        exact .obj members
    | null | bool _ | num _ | str _ | arr _ => cases h
  · rintro ⟨⟩
    have hmerge := Json.mergeRepeats_of_uniqueKeys hv
    rw [Json.mergeRepeats, Json.obj.injEq] at hmerge
    rw [attributes?, hmerge]

end scalars

/-- A field that may be missing holds what it has the shape of, if the same is true of a value that
is there. -/
theorem holds_optional_iff {α : Type} {decode : Json → Option α} {R : α → Json → Prop}
    (hnull : decode .null = none) {w : Option Json}
    (h : ∀ v, w = some v → ∀ a, decode v = some a ↔ R a v) (x : Option α) :
    Holds (optional? decode) false none x w ↔ Optionally R x w := by
  cases w with
  | none =>
      refine ⟨fun ⟨_, hx⟩ => hx ▸ .absent, fun hx => ?_⟩
      cases hx
      exact ⟨rfl, rfl⟩
  | some v =>
      have hiff := h v rfl
      by_cases hv : v = .null
      · subst hv
        constructor
        · intro hx
          cases hx
          exact .null
        · intro hx
          cases hx with
          | null => rfl
          | present ha =>
              have hsome := (hiff _).mpr ha
              rw [hnull] at hsome
              cases hsome
      · rw [Holds, optional?.eq_2 _ _ hv, Option.map_eq_some_iff]
        constructor
        · rintro ⟨a, ha, rfl⟩
          exact .present ((hiff a).mp ha)
        · intro hx
          cases hx with
          | null => exact absurd rfl hv
          | present ha => exact ⟨_, (hiff _).mpr ha, rfl⟩

theorem holds_text_iff {s : String} {w : Option Json} :
    Holds text? true "" s w ↔ w = some (.str s) := by
  cases w with
  | none => simp [Holds]
  | some v =>
      rw [Holds, text?_eq_some_iff, Option.some.injEq]
      refine ⟨?_, fun h => h ▸ .str s⟩
      rintro ⟨⟩
      rfl

theorem holds_text_or_empty_iff {s : String} {w : Option Json} :
    Holds text? false "" s w ↔ w = some (.str s) ∨ w = none ∧ s = "" := by
  cases w with
  | none => simp [Holds]
  | some v => exact (holds_text_iff (w := some v)).trans (by simp)

theorem holds_text?_iff {x : Option String} {w : Option Json} :
    Holds (optional? text?) false none x w ↔ Optionally IsText x w :=
  holds_optional_iff rfl (fun _ _ _ => text?_eq_some_iff) x

theorem holds_level?_iff {x : Option Int64} {w : Option Json} :
    Holds (optional? signed?) false none x w ↔ Optionally IsInt64 x w :=
  holds_optional_iff rfl (fun _ _ _ => signed?_eq_some_iff) x

theorem holds_line?_iff {x : Option UInt64} {w : Option Json} :
    Holds (optional? LocationField.line?) false none x w ↔ Optionally IsUInt64 x w :=
  holds_optional_iff rfl (fun _ _ _ => line?_eq_some_iff) x

theorem Location.ofJson?_eq_some_iff {l : Location} {v : Json} (hv : v.UniqueKeys) :
    ofJson? v = some l ↔ l.HasShape v := by
  have hset : setField? = Json.RecordShape.setBy fields LocationField.decode := by
    funext f l v
    exact setField?_eq f l v
  rw [ofJson?, hset]
  constructor
  · intro h
    obtain ⟨given, hgiven, hholds⟩ := filled_of_ofJson? lawful_shape h
    exact .record hgiven (holds_line?_iff.mp (hholds .line)) (holds_text?_iff.mp (hholds .file))
  · rintro ⟨hgiven, hline, hfile⟩
    refine ofJson?_of_filled lawful_shape ?_ hgiven fun f => ?_
    · rintro members rfl
      exact hv.1
    · cases f with
      | line => exact holds_line?_iff.mpr hline
      | file => exact holds_text?_iff.mpr hfile

theorem RichText.ofJson?_arr (items : List Json) :
    ofJson? (.arr items) = (Node.segments? items).map .segments := by
  rw [ofJson?, Node.optionalRich?]
  cases Node.segments? items <;> rfl

namespace Node

/-- The nodes that an array is decoded to. -/
def nodes? : Json → Option (List Node)
  | .arr items => list? items
  | _ => none

theorem optionalNodes?_eq (v : Json) : optionalNodes? v = optional? nodes? v := by
  cases v <;> rfl

theorem optionalRich?_eq (v : Json) : optionalRich? v = optional? RichText.ofJson? v := by
  cases v with
  | arr items =>
      rw [optionalRich?, optional?.eq_2 _ _ (by rintro ⟨⟩), RichText.ofJson?_arr, Option.map_map]
      rfl
  | null | bool _ | num _ | str _ | obj _ => rfl

theorem list?_eq_some_iff {R : Node → Json → Prop} {items : List Json}
    (h : ∀ w ∈ items, ∀ n, ofJson? w = some n ↔ R n w) {ns : List Node} :
    list? items = some ns ↔ List.Forall₂ R ns items := by
  induction items generalizing ns with
  | nil =>
      rw [list?, Option.some.injEq, List.forall₂_nil_right_iff]
      exact eq_comm
  | cons v rest ih =>
      obtain ⟨hv, hrest⟩ := List.forall_mem_cons.mp h
      rw [list?, List.forall₂_cons_right_iff]
      simp only [Option.bind_eq_bind, Option.bind_eq_some_iff, Option.pure_def,
        Option.some.injEq, ih hrest, hv]
      exact ⟨fun ⟨n, hn, ns, hns, h⟩ => ⟨n, ns, hn, hns, h.symm⟩,
        fun ⟨n, ns, hn, hns, h⟩ => ⟨n, hn, ns, hns, h.symm⟩⟩

/-- The segment that an element of an inline array is decoded to. -/
def segment? : Json → Option Segment
  | .str s => some (.text s)
  | v => (ofJson? v).map .node

theorem segments?_cons (v : Json) (rest : List Json) :
    segments? (v :: rest) =
      (segment? v).bind fun part => (segments? rest).map fun parts => part :: parts := by
  cases hrest : segments? rest <;> cases v <;> simp [segments?, segment?, hrest]

theorem segment?_eq_some_iff {v : Json} (h : ∀ n, ofJson? v = some n ↔ n.HasShape v)
    {part : Segment} : segment? v = some part ↔ part.HasShape v := by
  by_cases hv : ∃ s, v = .str s
  · obtain ⟨s, rfl⟩ := hv
    constructor
    · rintro ⟨⟩
      exact .text s
    · intro hpart
      cases hpart with
      | text _ => rfl
      | node hn => cases (h _).mpr hn
  · have hstr (s : String) : v ≠ .str s := fun h => hv ⟨s, h⟩
    rw [segment?.eq_2 _ hstr, Option.map_eq_some_iff]
    constructor
    · rintro ⟨n, hn, rfl⟩
      exact .node ((h n).mp hn)
    · intro hpart
      cases hpart with
      | text s => exact absurd rfl (hstr s)
      | node hn => exact ⟨_, (h _).mpr hn, rfl⟩

theorem segments?_eq_some_iff {R : Segment → Json → Prop} {items : List Json}
    (h : ∀ w ∈ items, ∀ part, segment? w = some part ↔ R part w) {parts : List Segment} :
    segments? items = some parts ↔ List.Forall₂ R parts items := by
  induction items generalizing parts with
  | nil =>
      rw [segments?, Option.some.injEq, List.forall₂_nil_right_iff]
      exact eq_comm
  | cons v rest ih =>
      obtain ⟨hv, hrest⟩ := List.forall_mem_cons.mp h
      rw [segments?_cons, List.forall₂_cons_right_iff]
      simp only [Option.bind_eq_some_iff, Option.map_eq_some_iff, ih hrest, hv]
      exact ⟨fun ⟨part, hpart, parts, hparts, h⟩ => ⟨part, parts, hpart, hparts, h.symm⟩,
        fun ⟨part, parts, hpart, hparts, h⟩ => ⟨part, hpart, parts, hparts, h.symm⟩⟩

/-- A value is decoded as its shape says, if the inline content and the nodes directly inside it
are. -/
theorem ofJson?_eq_some_iff_of_elements {n : Node} {v : Json} (hv : v.UniqueKeys)
    (hrich : ∀ w ∈ v.elements, ∀ t, RichText.ofJson? w = some t ↔ t.HasShape w)
    (hnodes : ∀ w ∈ v.elements, ∀ ns, nodes? w = some ns ↔ ListHasShape ns w) :
    ofJson? v = some n ↔ n.HasShape v := by
  have inside {given : NodeField → Option Json} (hgiven : shape.given? v = some given)
      {f : NodeField} {w : Json} (hw : given f = some w) : w ∈ v.elements :=
    Json.RecordShape.mem_elements_of_given? hgiven hw
  have rich {given : NodeField → Option Json} (hgiven : shape.given? v = some given)
      (f : NodeField) (x : Option RichText) :
      Holds optionalRich? false none x (given f) ↔ Optionally RichText.HasShape x (given f) := by
    rw [funext optionalRich?_eq]
    exact holds_optional_iff rfl (fun w hw => hrich w (inside hgiven hw)) x
  have list {given : NodeField → Option Json} (hgiven : shape.given? v = some given)
      (f : NodeField) (x : Option (List Node)) :
      Holds optionalNodes? false none x (given f) ↔ Optionally ListHasShape x (given f) := by
    rw [funext optionalNodes?_eq]
    exact holds_optional_iff rfl (fun w hw => hnodes w (inside hgiven hw)) x
  have attributes {given : NodeField → Option Json} (hgiven : shape.given? v = some given)
      (f : NodeField) (x : Option Json.Members) :
      Holds (optional? attributes?) false none x (given f) ↔
        Optionally IsAttributes x (given f) :=
    holds_optional_iff rfl
      (fun w hw _ => attributes?_eq_some_iff (hv.of_mem_elements (inside hgiven hw))) x
  have location {given : NodeField → Option Json} (hgiven : shape.given? v = some given)
      (f : NodeField) (x : Option Location) :
      Holds (optional? Location.ofJson?) false none x (given f) ↔
        Optionally Location.HasShape x (given f) :=
    holds_optional_iff rfl
      (fun w hw _ => Location.ofJson?_eq_some_iff (hv.of_mem_elements (inside hgiven hw))) x
  rw [ofJson?_eq]
  constructor
  · intro h
    obtain ⟨given, hgiven, hholds⟩ := filled_of_ofJson? lawful_shape h
    exact .record hgiven (holds_text_iff.mp (hholds .nodeName))
      (holds_text_or_empty_iff.mp (hholds .context))
      ((rich hgiven _ _).mp (hholds .title)) ((rich hgiven _ _).mp (hholds .content))
      ((rich hgiven _ _).mp (hholds .text)) ((list hgiven _ _).mp (hholds .blocks))
      ((list hgiven _ _).mp (hholds .items)) (holds_text?_iff.mp (hholds .alt))
      (holds_text?_iff.mp (hholds .target)) (holds_text?_iff.mp (hholds .subType))
      (holds_text?_iff.mp (hholds .id)) (holds_text?_iff.mp (hholds .role))
      (holds_text?_iff.mp (hholds .reftext)) (holds_level?_iff.mp (hholds .level))
      ((attributes hgiven _ _).mp (hholds .attributes))
      ((location hgiven _ _).mp (hholds .location))
  · rintro ⟨hgiven, hnodeName, hcontext, htitle, hcontent, htext, hblocks, hitems, halt, htarget,
      hsubType, hid, hrole, hreftext, hlevel, hattributes, hlocation⟩
    refine ofJson?_of_filled lawful_shape ?_ hgiven fun f => ?_
    · rintro members rfl
      exact hv.1
    · cases f with
      | nodeName => exact holds_text_iff.mpr hnodeName
      | context => exact holds_text_or_empty_iff.mpr hcontext
      | title => exact (rich hgiven _ _).mpr htitle
      | content => exact (rich hgiven _ _).mpr hcontent
      | text => exact (rich hgiven _ _).mpr htext
      | blocks => exact (list hgiven _ _).mpr hblocks
      | items => exact (list hgiven _ _).mpr hitems
      | alt => exact holds_text?_iff.mpr halt
      | target => exact holds_text?_iff.mpr htarget
      | subType => exact holds_text?_iff.mpr hsubType
      | id => exact holds_text?_iff.mpr hid
      | role => exact holds_text?_iff.mpr hrole
      | reftext => exact holds_text?_iff.mpr hreftext
      | level => exact holds_level?_iff.mpr hlevel
      | attributes => exact (attributes hgiven _ _).mpr hattributes
      | location => exact (location hgiven _ _).mpr hlocation

/-- Nodes, inline content and lists of nodes are decoded as their shapes say; the induction is on
the value, since all three stand inside one another. -/
theorem decoded_iff_hasShape (v : Json) (hv : v.UniqueKeys) :
    (∀ n, ofJson? v = some n ↔ n.HasShape v) ∧
      (∀ t, RichText.ofJson? v = some t ↔ t.HasShape v) ∧
      ∀ ns, nodes? v = some ns ↔ ListHasShape ns v := by
  induction v using Json.induction with
  | h v ih =>
      have ih := fun w hw => ih w hw (hv.of_mem_elements hw)
      refine ⟨fun n => ?_, fun t => ?_, fun ns => ?_⟩
      · exact ofJson?_eq_some_iff_of_elements hv (fun w hw => (ih w hw).2.1)
          (fun w hw => (ih w hw).2.2)
      · cases v with
        | str s =>
            constructor
            · rintro ⟨⟩
              exact .plain s
            · rintro ⟨⟩
              rfl
        | arr items =>
            have hsegments (parts : List Segment) :
                segments? items = some parts ↔ List.Forall₂ Segment.HasShape parts items :=
              segments?_eq_some_iff fun w hw _ => segment?_eq_some_iff (ih w hw).1
            rw [RichText.ofJson?_arr, Option.map_eq_some_iff]
            constructor
            · rintro ⟨parts, hparts, rfl⟩
              exact .segments ((hsegments parts).mp hparts)
            · intro h
              cases h with
              | segments h => exact ⟨_, (hsegments _).mpr h, rfl⟩
        | null | bool _ | num _ | obj _ =>
            constructor <;> rintro ⟨⟩
      · cases v with
        | arr items =>
            refine (list?_eq_some_iff fun w hw => (ih w hw).1).trans ⟨.arr, ?_⟩
            rintro ⟨h⟩
            exact h
        | null | bool _ | num _ | str _ | obj _ =>
            constructor <;> rintro ⟨⟩

theorem ofJson?_eq_some_iff {n : Node} {v : Json} (hv : v.UniqueKeys) :
    ofJson? v = some n ↔ n.HasShape v := (decoded_iff_hasShape v hv).1 n

end Node

end DocTree
