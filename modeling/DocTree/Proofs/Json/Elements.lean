import DocTree.Json.Basic
import Mathlib.Data.List.Nodup

/-!
The values directly inside a JSON value. What is said of a value at every depth follows from what
is said of these. Merging repeated keys leaves none, nests no deeper, and changes nothing where no
key is repeated.
-/

namespace DocTree.Json

/-- The values directly inside an array or an object. -/
def elements : Json → List Json
  | .arr items => items
  | .obj members => members.map Prod.snd
  | .null | .bool _ | .num _ | .str _ => []

/-- Whatever passes from the elements of a value to the value holds of every value. -/
theorem induction {P : Json → Prop} (h : ∀ v, (∀ w ∈ elements v, P w) → P v) (v : Json) : P v := by
  refine h v fun w hw => ?_
  have : sizeOf w < sizeOf v := by
    cases v with
    | null | bool _ | num _ | str _ => cases hw
    | arr items =>
        have : sizeOf w < sizeOf items := List.sizeOf_lt_of_mem hw
        simp only [arr.sizeOf_spec]
        omega
    | obj members =>
        obtain ⟨⟨key, w⟩, hmember, rfl⟩ := List.mem_map.mp hw
        have := List.sizeOf_lt_of_mem hmember
        simp only [Prod.mk.sizeOf_spec] at this
        simp only [obj.sizeOf_spec]
        omega
  exact induction h w
termination_by sizeOf v

section depth

theorem depthList_le_iff {items : List Json} {d : Nat} :
    depthList items ≤ d ↔ ∀ w ∈ items, depth w ≤ d := by
  induction items with
  | nil => simp [depthList]
  | cons v rest ih => rw [depthList, Nat.max_le, ih, List.forall_mem_cons]

theorem depthMembers_le_iff {members : Members} {d : Nat} :
    depthMembers members ≤ d ↔ ∀ member ∈ members, depth member.2 ≤ d := by
  induction members with
  | nil => simp [depthMembers]
  | cons member rest ih => rw [depthMembers, Nat.max_le, ih, List.forall_mem_cons]

theorem depth_obj_le_iff {members : Members} {d : Nat} :
    depth (.obj members) ≤ d + 1 ↔ ∀ member ∈ members, depth member.2 ≤ d := by
  rw [depth, Nat.add_le_add_iff_right, depthMembers_le_iff]

theorem depth_arr_le_iff {items : List Json} {d : Nat} :
    depth (.arr items) ≤ d + 1 ↔ ∀ w ∈ items, depth w ≤ d := by
  rw [depth, Nat.add_le_add_iff_right, depthList_le_iff]

theorem depth_lt_of_mem_elements {v w : Json} (h : w ∈ elements v) : depth w < depth v := by
  cases v with
  | null | bool _ | num _ | str _ => cases h
  | arr items => exact Nat.lt_succ_of_le (depthList_le_iff.mp (Nat.le_refl _) w h)
  | obj members =>
      obtain ⟨member, hmember, rfl⟩ := List.mem_map.mp h
      exact Nat.lt_succ_of_le (depthMembers_le_iff.mp (Nat.le_refl _) member hmember)

end depth

section keys

theorem uniqueKeysList_iff {items : List Json} :
    UniqueKeysList items ↔ ∀ w ∈ items, UniqueKeys w := by
  induction items with
  | nil => simp [UniqueKeysList]
  | cons v rest ih => simp [UniqueKeysList, ih]

theorem uniqueKeysMembers_iff {members : Members} :
    UniqueKeysMembers members ↔ ∀ member ∈ members, UniqueKeys member.2 := by
  induction members with
  | nil => simp [UniqueKeysMembers]
  | cons member rest ih =>
      obtain ⟨key, v⟩ := member
      rw [UniqueKeysMembers, ih, List.forall_mem_cons]

theorem UniqueKeys.of_mem_elements {v w : Json} (h : UniqueKeys v) (hw : w ∈ elements v) :
    UniqueKeys w := by
  cases v with
  | null | bool _ | num _ | str _ => cases hw
  | arr items => exact uniqueKeysList_iff.mp h w hw
  | obj members =>
      obtain ⟨member, hmember, rfl⟩ := List.mem_map.mp hw
      exact uniqueKeysMembers_iff.mp h.2 member hmember

end keys

section floats

theorem floatFreeList_iff {items : List Json} :
    FloatFreeList items ↔ ∀ w ∈ items, FloatFree w := by
  induction items with
  | nil => simp [FloatFreeList]
  | cons v rest ih => simp [FloatFreeList, ih]

theorem floatFreeMembers_iff {members : Members} :
    FloatFreeMembers members ↔ ∀ member ∈ members, FloatFree member.2 := by
  induction members with
  | nil => simp [FloatFreeMembers]
  | cons member rest ih =>
      obtain ⟨key, v⟩ := member
      rw [FloatFreeMembers, ih, List.forall_mem_cons]

end floats

section merging

theorem Members.mem_set {key : String} {v : Json} {members : Members} {entry : String × Json}
    (h : entry ∈ Members.set key v members) : entry.2 = v ∨ entry ∈ members := by
  induction members with
  | nil =>
      rw [Members.set, List.mem_singleton] at h
      exact .inl (congrArg Prod.snd h)
  | cons member rest ih =>
      rw [Members.set] at h
      split at h
      · rcases List.mem_cons.mp h with h | h
        · exact .inl (congrArg Prod.snd h)
        · exact .inr (List.mem_cons_of_mem _ h)
      · rcases List.mem_cons.mp h with h | h
        · exact .inr (h ▸ List.mem_cons_self)
        · exact (ih h).imp_right (List.mem_cons_of_mem _)

theorem Members.keys_set (key : String) (v : Json) (members : Members) :
    (Members.set key v members).map Prod.fst =
      if key ∈ members.map Prod.fst then members.map Prod.fst
      else members.map Prod.fst ++ [key] := by
  induction members with
  | nil => rfl
  | cons member rest ih =>
      obtain ⟨k, w⟩ := member
      rw [Members.set]
      by_cases hk : k = key
      · simp [hk]
      · have hk' : key ≠ k := fun h => hk h.symm
        rw [if_neg hk, List.map_cons, ih]
        by_cases hmem : key ∈ rest.map Prod.fst
        · simp [hmem]
        · simp [hmem, hk']

theorem Members.nodup_keys_set {members : Members} (h : (members.map Prod.fst).Nodup)
    (key : String) (v : Json) : ((Members.set key v members).map Prod.fst).Nodup := by
  rw [Members.keys_set]
  split
  · exact h
  · next hkey => exact List.nodup_append_comm.mp (List.nodup_cons.mpr ⟨hkey, h⟩)

theorem Members.set_of_not_mem {key : String} {members : Members}
    (h : key ∉ members.map Prod.fst) (v : Json) :
    Members.set key v members = members ++ [(key, v)] := by
  induction members with
  | nil => rfl
  | cons member rest ih =>
      obtain ⟨hk, hrest⟩ := not_or.mp (mt List.mem_cons.mpr h)
      rw [Members.set, if_neg fun h => hk h.symm, ih hrest, List.cons_append]

theorem Members.mem_ofList {entries : Members} {entry : String × Json}
    (h : entry ∈ Members.ofList entries) : ∃ member ∈ entries, entry.2 = member.2 := by
  suffices hfold : ∀ acc : Members, entry ∈ entries.foldl
      (fun members entry => Members.set entry.1 entry.2 members) acc →
      entry ∈ acc ∨ ∃ member ∈ entries, entry.2 = member.2 from
    (hfold [] h).resolve_left List.not_mem_nil
  clear h
  induction entries with
  | nil => exact fun _ h => .inl h
  | cons member rest ih =>
      intro acc h
      rcases ih (Members.set member.1 member.2 acc) h with h | ⟨other, hother, h⟩
      · exact (Members.mem_set h).symm.imp_right fun h => ⟨member, List.mem_cons_self, h⟩
      · exact .inr ⟨other, List.mem_cons_of_mem _ hother, h⟩

theorem Members.nodup_keys_ofList (entries : Members) :
    ((Members.ofList entries).map Prod.fst).Nodup := by
  suffices hfold : ∀ acc : Members, (acc.map Prod.fst).Nodup → ((entries.foldl
      (fun members entry => Members.set entry.1 entry.2 members) acc).map Prod.fst).Nodup from
    hfold [] List.nodup_nil
  intro acc hacc
  induction entries generalizing acc with
  | nil => exact hacc
  | cons entry rest ih => exact ih _ (Members.nodup_keys_set hacc entry.1 entry.2)

theorem Members.ofList_of_nodup {entries : Members} (h : (entries.map Prod.fst).Nodup) :
    Members.ofList entries = entries := by
  suffices hfold : ∀ acc : Members, ((acc ++ entries).map Prod.fst).Nodup → entries.foldl
      (fun members entry => Members.set entry.1 entry.2 members) acc = acc ++ entries from
    hfold [] h
  clear h
  induction entries with
  | nil => exact fun acc _ => (List.append_nil acc).symm
  | cons entry rest ih =>
      intro acc h
      have hkey : entry.1 ∉ acc.map Prod.fst := by
        rw [List.map_append, List.map_cons] at h
        exact fun hmem => (List.nodup_append.mp h).2.2 _ hmem _ List.mem_cons_self rfl
      rw [List.append_cons] at h
      rw [List.foldl_cons, Members.set_of_not_mem hkey, ih _ h, List.append_cons acc entry rest]

theorem mergeRepeatsList_eq (items : List Json) :
    mergeRepeatsList items = items.map mergeRepeats := by
  induction items with
  | nil => rfl
  | cons v rest ih => rw [mergeRepeatsList, ih, List.map_cons]

theorem mergeRepeatsMembers_eq (members : Members) :
    mergeRepeatsMembers members = members.map fun member => (member.1, mergeRepeats member.2) := by
  induction members with
  | nil => rfl
  | cons member rest ih => rw [mergeRepeatsMembers, ih, List.map_cons]

/-- A member of a merged object is a merged one of the object. -/
theorem mem_mergeRepeatsMembers {members : Members} {entry : String × Json}
    (h : entry ∈ Members.ofList (mergeRepeatsMembers members)) :
    ∃ w ∈ elements (.obj members), entry.2 = mergeRepeats w := by
  obtain ⟨member, hmember, hentry⟩ := Members.mem_ofList h
  rw [mergeRepeatsMembers_eq] at hmember
  obtain ⟨original, horiginal, rfl⟩ := List.mem_map.mp hmember
  exact ⟨original.2, List.mem_map_of_mem horiginal, hentry⟩

theorem uniqueKeys_mergeRepeats (v : Json) : UniqueKeys (mergeRepeats v) := by
  induction v using induction with
  | h v ih =>
      cases v with
      | null | bool _ | num _ | str _ => trivial
      | arr items =>
          rw [mergeRepeats, UniqueKeys, mergeRepeatsList_eq, uniqueKeysList_iff,
            List.forall_mem_map]
          exact ih
      | obj members =>
          rw [mergeRepeats]
          refine ⟨Members.nodup_keys_ofList _, uniqueKeysMembers_iff.mpr fun entry hentry => ?_⟩
          obtain ⟨w, hw, hentry⟩ := mem_mergeRepeatsMembers hentry
          rw [hentry]
          exact ih w hw

theorem depth_mergeRepeats_le (v : Json) : depth (mergeRepeats v) ≤ depth v := by
  induction v using induction with
  | h v ih =>
      cases v with
      | null | bool _ | num _ | str _ => exact Nat.le_refl _
      | arr items =>
          rw [mergeRepeats, mergeRepeatsList_eq]
          refine depth_arr_le_iff.mpr (List.forall_mem_map.mpr fun w hw => ?_)
          exact Nat.le_trans (ih w hw) (depthList_le_iff.mp (Nat.le_refl _) w hw)
      | obj members =>
          rw [mergeRepeats]
          refine depth_obj_le_iff.mpr fun entry hentry => ?_
          obtain ⟨w, hw, hentry⟩ := mem_mergeRepeatsMembers hentry
          rw [hentry]
          have hdepth := depth_lt_of_mem_elements hw
          exact Nat.le_trans (ih w hw) (Nat.le_of_lt_succ hdepth)

theorem mergeRepeats_of_uniqueKeys {v : Json} (h : UniqueKeys v) : mergeRepeats v = v := by
  induction v using induction with
  | h v ih =>
      have helement : ∀ w ∈ elements v, mergeRepeats w = w :=
        fun w hw => ih w hw (h.of_mem_elements hw)
      cases v with
      | null | bool _ | num _ | str _ => rfl
      | arr items =>
          have hitems : items.map mergeRepeats = items :=
            (List.map_congr_left helement).trans (List.map_id items)
          rw [mergeRepeats, mergeRepeatsList_eq, hitems]
      | obj members =>
          have hmembers : mergeRepeatsMembers members = members := by
            rw [mergeRepeatsMembers_eq]
            refine (List.map_congr_left fun member hmember => ?_).trans (List.map_id members)
            exact congrArg (Prod.mk member.1) (helement _ (List.mem_map_of_mem hmember))
          rw [mergeRepeats, hmembers, Members.ofList_of_nodup h.1]

end merging

end DocTree.Json
