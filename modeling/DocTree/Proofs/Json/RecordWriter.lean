import DocTree.Proofs.Json.Record

/-!
A record is written as an object of those fields that have a value to be written, in their declared
order. The object gives each field what was written of it. It repeats no key, nests one deeper than
the values in it and is free of doubles, if the same is true of these values.
-/

namespace DocTree.Json

/-- A value that repeats no key and nests no deeper than `d`. -/
structure Fits (d : Nat) (v : Json) : Prop where
  keys : v.UniqueKeys
  depth : v.depth ≤ d

theorem Fits.mono {d d' : Nat} {v : Json} (h : v.Fits d) (hd : d ≤ d') : v.Fits d' :=
  ⟨h.keys, Nat.le_trans h.depth hd⟩

theorem fits_arr {d : Nat} {items : List Json} (h : ∀ w ∈ items, w.Fits d) :
    (Json.arr items).Fits (d + 1) :=
  ⟨uniqueKeysList_iff.mpr fun w hw => (h w hw).keys,
    depth_arr_le_iff.mpr fun w hw => (h w hw).depth⟩

namespace RecordShape

variable {F : Type}

def written (shape : RecordShape F) (value? : F → Option Json) : Members :=
  shape.fields.filterMap fun f => (value? f).map (shape.key f, ·)

variable {shape : RecordShape F} {value? : F → Option Json}

theorem keys_written_sublist :
    ((shape.written value?).map Prod.fst).Sublist (shape.fields.map shape.key) := by
  rw [written]
  induction shape.fields with
  | nil => exact .slnil
  | cons f fields ih =>
      cases hvalue : value? f with
      | none =>
          rw [List.filterMap_cons_none (by rw [hvalue]; rfl)]
          exact .cons _ ih
      | some w =>
          rw [List.filterMap_cons_some (by rw [hvalue]; rfl)]
          exact .cons_cons _ ih

variable (hshape : shape.Lawful)

include hshape

theorem Lawful.nodup_keys_written : ((shape.written value?).map Prod.fst).Nodup :=
  keys_written_sublist.nodup (hshape.nodup.map hshape.key_injective)

theorem Lawful.lookup_written [DecidableEq F] (f : F) :
    List.lookup (shape.key f) (shape.written value?) = value? f := by
  have hfields (fields : List F) :
      List.lookup (shape.key f)
          (fields.filterMap fun g => (value? g).map (shape.key g, ·)) =
        if f ∈ fields then value? f else none := by
    induction fields with
    | nil => rfl
    | cons g fields ih =>
        cases hvalue : value? g with
        | none =>
            rw [List.filterMap_cons_none (by rw [hvalue]; rfl), ih]
            by_cases hg : f = g
            · simp [hg, hvalue]
            · simp [hg]
        | some w =>
            rw [List.filterMap_cons_some (by rw [hvalue]; rfl), hshape.lookup_of_known, ih]
            by_cases hg : f = g
            · simp [hg, hvalue]
            · simp [hg]
  rw [written, hfields, if_pos (hshape.complete f)]

theorem Lawful.given?_written [DecidableEq F] :
    shape.given? (.obj (shape.written value?)) = some value? :=
  congrArg some (funext hshape.lookup_written)

theorem Lawful.forall_mem_written_iff {P : Json → Prop} :
    (∀ member ∈ shape.written value?, P member.2) ↔ ∀ f w, value? f = some w → P w := by
  constructor
  · intro h f w hw
    exact h (shape.key f, w)
      (List.mem_filterMap.mpr ⟨f, hshape.complete f, by rw [hw, Option.map_some]⟩)
  · intro h member hmember
    obtain ⟨f, _, hf⟩ := List.mem_filterMap.mp hmember
    obtain ⟨w, hw, rfl⟩ := Option.map_eq_some_iff.mp hf
    exact h f w hw

theorem Lawful.fits_written {d : Nat} (h : ∀ f w, value? f = some w → w.Fits d) :
    (Json.obj (shape.written value?)).Fits (d + 1) := by
  have hmembers := hshape.forall_mem_written_iff.mpr h
  refine ⟨⟨hshape.nodup_keys_written, uniqueKeysMembers_iff.mpr fun member hmember => ?_⟩,
    depth_obj_le_iff.mpr fun member hmember => ?_⟩
  · exact (hmembers member hmember).keys
  · exact (hmembers member hmember).depth

theorem Lawful.floatFree_written (h : ∀ f w, value? f = some w → w.FloatFree) :
    (Json.obj (shape.written value?)).FloatFree :=
  floatFreeMembers_iff.mpr (hshape.forall_mem_written_iff.mpr h)

end RecordShape

end DocTree.Json
