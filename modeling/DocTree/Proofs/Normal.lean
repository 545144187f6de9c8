import DocTree.Proofs.Json.Elements
import DocTree.Proofs.Members
import DocTree.Proofs.Merged

/-!
Normal lists. Normalizing puts text into nodes, takes arrays apart and, where lists are flat, opens
blocks; any other value is kept as it is. What it comes to is kept when it is normalized again, and
what is no node in it has been reported. The values in an array are normalized one by one, however
they are grouped into arrays within it.
-/

namespace DocTree

open Json (normalizeItems normalizeUnder)

namespace Mdast

def type? : Json → Option String
  | .obj members => Json.Members.string? "type" members
  | _ => none

end Mdast

open Mdast (type?)

/-- What is reported of a list of values: those that are no nodes, in order. -/
def shapeReports (vs : List Json) : List Event :=
  (vs.filter fun v => (type? v).isNone).map fun v => .report (.unknownShape v)

theorem shapeReports_append (vs ws : List Json) :
    shapeReports (vs ++ ws) = shapeReports vs ++ shapeReports ws := by
  simp [shapeReports]

/-- A value that is no text and holds nothing: null, a boolean or a number. -/
def Json.IsAtom : Json → Prop
  | .null | .bool _ | .num _ => True
  | .str _ | .arr _ | .obj _ => False

/-- A value that normalizing leaves as it is, be it a node or not. -/
def Kept (flat : Bool) : Json → Prop
  | .str _ | .arr _ => False
  | .obj record => ¬(flat = true ∧ type? (.obj record) = some wrapperType)
  | .null | .bool _ | .num _ => True

theorem normalizeUnder_eq (flat : Bool) (key : String) (members : Json.Members) :
    normalizeUnder flat key members =
      (members.lookup key).elim (pure []) (Json.normalize flat) := by
  induction members with
  | nil => rfl
  | cons m rest ih =>
      obtain ⟨k, v⟩ := m
      by_cases h : k = key <;> simp [normalizeUnder, Json.lookup_cons, h, ih]

theorem normalize_of_kept {flat : Bool} {v : Json} (h : Kept flat v) :
    v.normalize flat = ⟨[v], shapeReports [v]⟩ := by
  cases v with
  | str _ | arr _ => exact h.elim
  | null | bool _ | num _ => rfl
  | obj record =>
      rw [Json.normalize]
      cases htype : Json.Members.string? "type" record with
      | none =>
          simp only [shapeReports, List.filter, type?, htype]
          rfl
      | some type =>
          have hopen : (flat && decide (type = wrapperType)) = false := by
            simpa [Kept, type?, htype] using h
          simp only [shapeReports, List.filter, type?, htype, hopen]
          rfl

theorem normalize_wrapper {record : Json.Members}
    (h : type? (.obj record) = some wrapperType) :
    (Json.obj record).normalize true =
      (record.lookup "children").elim (pure []) (Json.normalize true) := by
  have htype : Json.Members.string? "type" record = some wrapperType := h
  rw [Json.normalize, htype, ← normalizeUnder_eq]
  rfl

/-- Normalizing meets text, arrays, what it keeps, and in a flat list blocks, which it opens. -/
theorem normal_induction (flat : Bool) {P : Json → Prop} (text : ∀ s, P (.str s))
    (list : ∀ items, (∀ v ∈ items, P v) → P (.arr items)) (kept : ∀ v, Kept flat v → P v)
    (opened : ∀ record, flat = true → type? (.obj record) = some wrapperType →
      (∀ v, record.lookup "children" = some v → P v) → P (.obj record)) (v : Json) : P v := by
  induction v using Json.induction with
  | h v ih =>
      cases v with
      | str s => exact text s
      | arr items => exact list items ih
      | null | bool _ | num _ => exact kept _ trivial
      | obj record =>
          by_cases h : flat = true ∧ type? (.obj record) = some wrapperType
          · refine opened record h.1 h.2 fun v hv => ih v ?_
            obtain ⟨_, _, hrecord, -⟩ := List.lookup_eq_some_iff.mp hv
            simp [Json.elements, hrecord]
          · exact kept _ h

/-- The values in a list are normalized one after the other. -/
theorem normalizeItems_eq (flat : Bool) (items : List Json) :
    normalizeItems flat items =
      ⟨items.flatMap fun v => (v.normalize flat).value,
        items.flatMap fun v => (v.normalize flat).events⟩ := by
  induction items with
  | nil => rfl
  | cons v rest ih =>
      rw [normalizeItems, ih]
      simp [bind, pure]

theorem normalizeItems_append (flat : Bool) (vs ws : List Json) :
    normalizeItems flat (vs ++ ws) =
      (do return (← normalizeItems flat vs) ++ (← normalizeItems flat ws)) := by
  simp [normalizeItems_eq, bind, pure]

theorem normalizeItems_of_kept {flat : Bool} {vs : List Json} (h : ∀ v ∈ vs, Kept flat v) :
    normalizeItems flat vs = ⟨vs, shapeReports vs⟩ := by
  induction vs with
  | nil => rfl
  | cons v vs ih =>
      have hv := normalize_of_kept (h v List.mem_cons_self)
      have hvs := ih fun w hw => h w (List.mem_cons_of_mem _ hw)
      rw [← List.singleton_append, shapeReports_append, normalizeItems_append, hvs]
      simp [normalizeItems_eq, hv, bind, pure]

theorem kept_normalize (flat : Bool) (v : Json) : ∀ w ∈ (v.normalize flat).value, Kept flat w := by
  induction v using normal_induction flat with
  | text s =>
      intro w hw
      rw [List.mem_singleton.mp hw]
      exact fun h => absurd (Option.some.inj h.2) (by decide)
  | list items ih =>
      intro w hw
      rw [Json.normalize, normalizeItems_eq] at hw
      obtain ⟨v, hv, hw⟩ := List.mem_flatMap.mp hw
      exact ih v hv w hw
  | kept v h =>
      rw [normalize_of_kept h]
      exact List.forall_mem_singleton.mpr h
  | opened record hflat htype ih =>
      subst hflat
      rw [normalize_wrapper htype]
      cases hchildren : record.lookup "children" with
      | none => exact List.forall_mem_nil _
      | some v => exact ih v hchildren

theorem events_normalize (flat : Bool) (v : Json) :
    (v.normalize flat).events = shapeReports (v.normalize flat).value := by
  induction v using normal_induction flat with
  | text s => rfl
  | list items ih =>
      rw [Json.normalize, normalizeItems_eq]
      simp only
      induction items with
      | nil => rfl
      | cons v rest ihrest =>
          rw [List.flatMap_cons, List.flatMap_cons, shapeReports_append, ih v List.mem_cons_self,
            ihrest fun w hw => ih w (List.mem_cons_of_mem _ hw)]
  | kept v h => rw [normalize_of_kept h]
  | opened record hflat htype ih =>
      subst hflat
      rw [normalize_wrapper htype]
      cases hchildren : record.lookup "children" with
      | none => rfl
      | some v => exact ih v hchildren

namespace Fragment

/-- Whatever passes from the parts of a sequence to the sequence holds of every fragment. -/
theorem induction {P : Fragment → Prop} (leaf : ∀ s, P (.leaf s))
    (node : ∀ record, P (.node record))
    (sequence : ∀ parts, (∀ f ∈ parts, P f) → P (.sequence parts)) (other : ∀ v, P (.other v))
    (f : Fragment) : P f := by
  cases f with
  | leaf s => exact leaf s
  | node record => exact node record
  | other v => exact other v
  | sequence parts =>
      refine sequence parts fun f hf => ?_
      have : sizeOf f < sizeOf parts := List.sizeOf_lt_of_mem hf
      exact induction leaf node sequence other f
termination_by sizeOf f
decreasing_by
  simp only [Fragment.sequence.sizeOf_spec]
  omega

mutual

/-- The values that are neither text nor a record, at any depth of sequences. -/
def others : Fragment → List Json
  | .leaf _ | .node _ => []
  | .sequence parts => othersOf parts
  | .other v => [v]

def othersOf : List Fragment → List Json
  | [] => []
  | f :: rest => others f ++ othersOf rest

end

/-- Nothing in a fragment is kept as another value that could be read as text, as a record or as a
sequence. -/
def IsClassified (f : Fragment) : Prop := ∀ v ∈ f.others, v.IsAtom

theorem isClassified_sequence_iff {parts : List Fragment} :
    (sequence parts).IsClassified ↔ ∀ f ∈ parts, f.IsClassified := by
  rw [IsClassified, others]
  induction parts with
  | nil => simp [othersOf]
  | cons f rest ih => simp [othersOf, or_imp, forall_and, ih, IsClassified]

theorem toList_ofList {items : List Json} (h : ∀ v ∈ items, (ofJson v).toJson = v) :
    toList (ofList items) = items := by
  induction items with
  | nil => rfl
  | cons v rest ih =>
      rw [ofList, toList, h v List.mem_cons_self, ih fun w hw => h w (List.mem_cons_of_mem _ hw)]

theorem toJson_ofJson (v : Json) : (ofJson v).toJson = v := by
  induction v using Json.induction with
  | h v ih =>
      cases v with
      | null | bool _ | num _ | str _ | obj _ => rfl
      | arr items => exact congrArg Json.arr (toList_ofList ih)

theorem ofList_eq_map (items : List Json) : ofList items = items.map ofJson := by
  induction items with
  | nil => rfl
  | cons v rest ih => rw [ofList, ih, List.map_cons]

theorem isClassified_ofJson (v : Json) : (ofJson v).IsClassified := by
  induction v using Json.induction with
  | h v ih =>
      cases v with
      | str _ | obj _ => exact List.forall_mem_nil _
      | null | bool _ | num _ => exact List.forall_mem_singleton.mpr trivial
      | arr items =>
          rw [ofJson, isClassified_sequence_iff, ofList_eq_map, List.forall_mem_map]
          exact ih

/-- A classified fragment is normalized like the value that it was read from. -/
theorem normalize_toJson (flat : Bool) {f : Fragment} (h : f.IsClassified) :
    f.toJson.normalize flat = f.normalize flat := by
  induction f using induction with
  | leaf s => rfl
  | node record => rfl
  | other v =>
      have hv : v.IsAtom := h v (List.mem_singleton_self v)
      cases v with
      | null | bool _ | num _ => rfl
      | str _ | arr _ | obj _ => exact hv.elim
  | sequence parts ih =>
      rw [isClassified_sequence_iff] at h
      rw [toJson, Json.normalize, normalize]
      induction parts with
      | nil => rfl
      | cons f rest ihrest =>
          have hf := ih f List.mem_cons_self (h f List.mem_cons_self)
          have hrest := ihrest (fun g hg => ih g (List.mem_cons_of_mem _ hg))
            fun g hg => h g (List.mem_cons_of_mem _ hg)
          rw [toList, normalizeItems, normalizeParts, hf, hrest]

end Fragment

section canonical

/-- A normal list with what was reported while it was made. -/
structure IsNormal (flat : Bool) (result : Traced (List Json)) : Prop where
  /-- The values that are no nodes are reported, in order, and nothing else is. -/
  reported : result.events = shapeReports result.value
  /-- Normalizing the list gives the same list with the same reports. -/
  stable : (Json.arr result.value).normalize flat = result

theorem isNormal_normalize_json (flat : Bool) (v : Json) : IsNormal flat (v.normalize flat) where
  reported := events_normalize flat v
  stable := by
    rw [Json.normalize, normalizeItems_of_kept (kept_normalize flat v), ← events_normalize]

/-- Every value, and every fragment that could have been read from one, becomes a normal list. -/
theorem isNormal_normalize (flat : Bool) :
    (∀ v : Json, IsNormal flat (v.normalize flat)) ∧
      ∀ f : Fragment, f.IsClassified → IsNormal flat (f.normalize flat) := by
  refine ⟨isNormal_normalize_json flat, fun f hf => ?_⟩
  rw [← Fragment.normalize_toJson flat hf]
  exact isNormal_normalize_json flat f.toJson

/-- A block that holds text and, in an array of its own, null. -/
def mixedBlock : Json :=
  .obj [("type", .str "block"), ("children", .arr [.str "a", .arr [.null]])]

def mixedParts : Fragment := .sequence [.sequence [.other (.bool true)], .ofJson mixedBlock]

theorem isNormal_normalize_mixedParts :
    mixedParts.IsClassified ∧ IsNormal true (mixedParts.normalize true) ∧
      (mixedParts.normalize true).value = [.bool true, textNode "a", .null] := by
  have hclassified : mixedParts.IsClassified := List.forall_mem_singleton.mpr trivial
  exact ⟨hclassified, (isNormal_normalize true).2 mixedParts hclassified, rfl⟩

end canonical

section spread

namespace Json

mutual

/-- The values in an array and in the arrays within it, in order. A value that is no array stands
for itself. -/
def spread : Json → List Json
  | .arr items => spreadItems items
  | .null => [.null]
  | .bool b => [.bool b]
  | .num n => [.num n]
  | .str s => [.str s]
  | .obj members => [.obj members]

def spreadItems : List Json → List Json
  | [] => []
  | v :: rest => spread v ++ spreadItems rest

end

end Json

theorem normalizeItems_singleton (flat : Bool) (v : Json) :
    normalizeItems flat [v] = v.normalize flat := by
  simp [normalizeItems]

theorem normalize_eq_spread (flat : Bool) (v : Json) :
    v.normalize flat = normalizeItems flat v.spread := by
  induction v using Json.induction with
  | h v ih =>
      cases v with
      | null | bool _ | num _ | str _ | obj _ => exact (normalizeItems_singleton flat _).symm
      | arr items =>
          rw [Json.normalize, Json.spread]
          induction items with
          | nil => rfl
          | cons v rest ihrest =>
              rw [normalizeItems, Json.spreadItems, normalizeItems_append, ih v List.mem_cons_self,
                ihrest fun w hw => ih w (List.mem_cons_of_mem _ hw)]

/-- Nothing is lost for a flat list when its values were normalized without opening blocks. -/
theorem normalizeItems_nested (v : Json) :
    normalizeItems true (v.normalize false).value = v.normalize true := by
  induction v using normal_induction false with
  | text s => rfl
  | kept v h => rw [normalize_of_kept h, normalizeItems_singleton]
  | opened record hflat _ _ => cases hflat
  | list items ih =>
      rw [Json.normalize, Json.normalize]
      induction items with
      | nil => rfl
      | cons v rest ihrest =>
          have hrest := ihrest fun w hw => ih w (List.mem_cons_of_mem _ hw)
          rw [normalizeItems, Traced.value_bind, Traced.value_bind, Traced.value_pure,
            normalizeItems_append, ih v List.mem_cons_self, hrest, normalizeItems]

theorem type?_ne_of_kept {v : Json} (h : Kept true v) : type? v ≠ some wrapperType := by
  cases v with
  | obj record => exact fun htype => h ⟨rfl, htype⟩
  | str _ | arr _ | null | bool _ | num _ => exact nofun

/-- A flat list has no blocks and can be made from a list that still has them. Either list is put
together from what the values become one by one, so arrays around them do not count. -/
theorem normalize_flat_of_nested (v : Json) :
    (∀ w ∈ (v.normalize true).value, type? w ≠ some wrapperType) ∧
      (Json.arr (v.normalize false).value).normalize true = v.normalize true ∧
      ∀ flat : Bool,
        v.normalize flat =
            ⟨v.spread.flatMap fun w => (w.normalize flat).value,
              v.spread.flatMap fun w => (w.normalize flat).events⟩ ∧
          ∀ w : Json, w.spread = v.spread → w.normalize flat = v.normalize flat := by
  refine ⟨fun w hw => type?_ne_of_kept (kept_normalize true v w hw), normalizeItems_nested v,
    fun flat => ⟨?_, fun w hw => ?_⟩⟩
  · rw [← normalizeItems_eq, ← normalize_eq_spread]
  · rw [normalize_eq_spread, hw, ← normalize_eq_spread]

theorem normalize_regrouped :
    (Json.arr [.arr [mixedBlock], .bool true]).spread =
        (Json.arr [mixedBlock, .arr [.arr [.bool true]]]).spread ∧
      (Json.arr [.arr [mixedBlock], .bool true]).normalize true =
        ⟨[textNode "a", .null, .bool true], shapeReports [.null, .bool true]⟩ ∧
      type? (textNode "a") ≠ some wrapperType := by
  obtain ⟨hwrapper, -, h⟩ := normalize_flat_of_nested (.arr [mixedBlock, .arr [.arr [.bool true]]])
  exact ⟨rfl, (h true).2 _ rfl, hwrapper (textNode "a") List.mem_cons_self⟩

end spread

end DocTree
