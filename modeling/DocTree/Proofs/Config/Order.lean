import DocTree.Config.Order
import DocTree.Proofs.Config.Merging

/-!
What does not depend on the order of entries. Values that are rearranged into each other have the
same entries in every place, up to rearrangement, so they give alike values for it.
-/

namespace DocTree.Config

namespace Value

theorem mem_entriesAt_cons {key : String} {keys : List String} {v w : Value} :
    w ∈ entriesAt (key :: keys) v ↔
      ∃ entry ∈ v.entries, Text.lower entry.1 = key ∧ w ∈ entriesAt keys entry.2 := by
  rw [entriesAt, List.mem_flatMap]
  refine exists_congr fun entry => and_congr_right fun _ => ?_
  by_cases h : Text.lower entry.1 = key <;> simp [h]

namespace Rearranged

variable {v w : Value}

theorem symm (h : Rearranged v w) : Rearranged w v := by
  induction h with
  | refl v => exact .refl v
  | trans _ _ ih ih' => exact ih'.trans ih
  | entries h => exact .entries h.symm
  | entry front key back _ ih => exact .entry front key back ih
  | item front back file _ ih => exact .item front back file ih

theorem alike (h : Rearranged v w) : Alike v w := by
  induction h with
  | refl v => exact .refl v
  | trans _ _ ih ih' => exact ih.trans ih'
  | entries h => exact .table _ _
  | entry front key back _ _ => exact .table _ _
  | item front back file _ _ => exact .list _ _ _ _

theorem isTable_eq (h : Rearranged v w) : v.isTable = w.isTable := by
  cases h.alike <;> rfl

theorem isEmptyTable_eq (h : Rearranged v w) : v.isEmptyTable = w.isEmptyTable := by
  induction h with
  | refl v => rfl
  | trans _ _ ih ih' => exact ih.trans ih'
  | entries h => exact List.Perm.isEmpty_eq h
  | entry front key back _ _ => cases front <;> rfl
  | item front back file _ _ => rfl

/-- An entry in a place comes from one of the entries that were there before. -/
theorem exists_mem_entriesAt (h : Rearranged v w) {keys : List String} {x : Value}
    (hx : x ∈ entriesAt keys w) : ∃ y ∈ entriesAt keys v, Rearranged y x := by
  induction h generalizing keys x with
  | refl v => exact ⟨x, hx, .refl x⟩
  | trans _ _ ih ih' =>
      obtain ⟨y, hy, hyx⟩ := ih' hx
      obtain ⟨z, hz, hzy⟩ := ih hy
      exact ⟨z, hz, hzy.trans hyx⟩
  | @entries before after h =>
      cases keys with
      | nil =>
          cases List.mem_singleton.mp hx
          exact ⟨_, List.mem_singleton_self _, .entries h⟩
      | cons key keys =>
          obtain ⟨entry, hentry, hinside⟩ := mem_entriesAt_cons.mp hx
          exact ⟨x, mem_entriesAt_cons.mpr ⟨entry, h.mem_iff.mpr hentry, hinside⟩, .refl x⟩
  | @entry v w front name back h ih =>
      cases keys with
      | nil =>
          cases List.mem_singleton.mp hx
          exact ⟨_, List.mem_singleton_self _, .entry front name back h⟩
      | cons key keys =>
          obtain ⟨e, he, hkey, hinside⟩ := mem_entriesAt_cons.mp hx
          have hmem {e : String × Value} (he : e ∈ front ∨ e ∈ back) :
              e ∈ front ++ (name, v) :: back :=
            List.mem_append.mpr (he.imp_right (List.mem_cons_of_mem _))
          obtain hfront | hmiddle := List.mem_append.mp he
          · exact ⟨x, mem_entriesAt_cons.mpr ⟨e, hmem (.inl hfront), hkey, hinside⟩, .refl x⟩
          · obtain rfl | hback := List.mem_cons.mp hmiddle
            · obtain ⟨y, hy, hyx⟩ := ih hinside
              refine ⟨y, mem_entriesAt_cons.mpr ⟨(name, v), ?_, hkey, hy⟩, hyx⟩
              exact List.mem_append_right front List.mem_cons_self
            · exact ⟨x, mem_entriesAt_cons.mpr ⟨e, hmem (.inr hback), hkey, hinside⟩, .refl x⟩
  | item front back file h _ =>
      cases keys with
      | nil =>
          cases List.mem_singleton.mp hx
          exact ⟨_, List.mem_singleton_self _, .item front back file h⟩
      | cons key keys => cases hx

theorem exists_mem_given (h : Rearranged v w) {keys : List String} {x : Value}
    (hx : x ∈ given keys w) : ∃ y ∈ given keys v, Alike x y := by
  obtain ⟨hx, hempty⟩ := List.mem_filter.mp hx
  obtain ⟨y, hy, hyx⟩ := h.exists_mem_entriesAt hx
  exact ⟨y, List.mem_filter.mpr ⟨hy, by rwa [hyx.isEmptyTable_eq]⟩, hyx.symm.alike⟩

theorem given_eq_nil (h : Rearranged v w) {keys : List String} (hnil : given keys w = []) :
    given keys v = [] := by
  refine List.eq_nil_iff_forall_not_mem.mpr fun x hx => ?_
  obtain ⟨y, hy, -⟩ := h.symm.exists_mem_given hx
  rw [hnil] at hy
  cases hy

end Rearranged

/-- What a layer puts in a place is given by it also when its entries come in another order. -/
theorem Puts.of_rearranged {keys : List String} {v w before after : Value}
    (h : Puts keys (given keys w) before after) (hvw : Rearranged v w) :
    Puts keys (given keys v) before after :=
  h.mono (fun _ hx => hvw.exists_mem_given hx) hvw.given_eq_nil

end Value

namespace KeyPath

open Value

theorem rearranged_spelled (steps : List Step) {v w : Value} (h : Rearranged v w) :
    Rearranged (spelled steps v) (spelled steps w) := by
  induction steps with
  | nil => exact h
  | cons step steps ih =>
      cases step with
      | key name => exact .entry [] name [] ih
      | item place => exact .item [] [] none h

end KeyPath

namespace Loader

open Value

/-- The value in which every key at the top is a plain one. -/
def plain : Value → Value
  | .table entries => .table (entries.map plainEntry)
  | v => v

theorem rearranged_plain {v w : Value} (h : Rearranged v w) : Rearranged (plain v) (plain w) := by
  induction h with
  | refl v => exact .refl _
  | trans _ _ ih ih' => exact ih.trans ih'
  | entries h => exact .entries (h.map _)
  | entry front key back h _ =>
      simp only [plain, List.map_append, List.map_cons]
      exact .entry _ _ _ (KeyPath.rearranged_spelled _ h)
  | item front back file h _ => exact .item front back file h

end Loader

end DocTree.Config
