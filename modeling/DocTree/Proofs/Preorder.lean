/-!
Pre-order walks. A descent names the elements directly below an element, in order, and leads to an
end. The walk visits an element and then walks what is below it; a property that passes from below
to above holds of every element.
-/

namespace DocTree

structure Descent (α : Type) where
  /-- The elements directly below an element. -/
  next : α → List α
  wellFounded : WellFounded fun b a => b ∈ next a

namespace Descent

variable {α : Type}

theorem wellFounded_of_sizeOf_lt [SizeOf α] {next : α → List α}
    (h : ∀ a, ∀ b ∈ next a, sizeOf b < sizeOf a) : WellFounded fun b a => b ∈ next a :=
  Subrelation.wf (fun hb => h _ _ hb) (measure sizeOf).wf

variable (d : Descent α)

/-- An element and all those below it, each before those below itself. -/
def preorder (a : α) : List α :=
  a :: (d.next a).flatMap fun b => preorder b
termination_by d.wellFounded.wrap a

theorem preorder_eq (a : α) : d.preorder a = a :: (d.next a).flatMap d.preorder := by
  rw [preorder]

theorem mem_preorder_of_mem_next {a b c : α} (hb : b ∈ d.next a) (hc : c ∈ d.preorder b) :
    c ∈ d.preorder a := by
  rw [preorder_eq]
  exact List.mem_cons_of_mem _ (List.mem_flatMap.mpr ⟨b, hb, hc⟩)

theorem forall_mem_preorder_iff {P : α → Prop} {a : α} :
    (∀ c ∈ d.preorder a, P c) ↔ P a ∧ ∀ b ∈ d.next a, ∀ c ∈ d.preorder b, P c := by
  rw [preorder_eq, List.forall_mem_cons]
  refine and_congr_right fun _ => ⟨?_, ?_⟩
  · intro h b hb c hc
    exact h c (List.mem_flatMap.mpr ⟨b, hb, hc⟩)
  · intro h c hc
    obtain ⟨b, hb, hc⟩ := List.mem_flatMap.mp hc
    exact h b hb c hc

theorem forall_mem_preorder {P : α → Prop} {a : α} (ha : P a)
    (hb : ∀ b ∈ d.next a, ∀ c ∈ d.preorder b, P c) : ∀ c ∈ d.preorder a, P c :=
  d.forall_mem_preorder_iff.mpr ⟨ha, hb⟩

theorem induction {P : α → Prop} (step : ∀ a, (∀ b ∈ d.next a, P b) → P a) (a : α) : P a :=
  d.wellFounded.induction a step

end Descent

end DocTree
