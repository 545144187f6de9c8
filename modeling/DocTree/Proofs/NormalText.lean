import DocTree.Proofs.Mdast.Text
import DocTree.Proofs.Normal

/-!
The text of normal lists. Normalizing keeps the text of whatever it is given. When a block is
opened, its own children take its place, so its text is theirs as long as it has no `value` that
would come before them.
-/

namespace DocTree

open Json (textOfItems)
open Mdast (type?)

theorem textOfItems_singleton (v : Json) : textOfItems [v] = v.textContent := by
  simp [textOfItems]

@[simp] theorem textContent_textNode (s : String) : (textNode s).textContent = s := by
  simp [textNode, Json.textContent, Json.textUnder?]

theorem textOfItems_flatMap {α : Type} {as : List α} {f : α → List Json} {g : α → Json}
    (h : ∀ a ∈ as, textOfItems (f a) = (g a).textContent) :
    textOfItems (as.flatMap f) = textOfItems (as.map g) := by
  induction as with
  | nil => rfl
  | cons a as ih =>
      have hrest := ih fun b hb => h b (List.mem_cons_of_mem _ hb)
      rw [List.flatMap_cons, Json.textOfItems_append, h a List.mem_cons_self, hrest, List.map_cons,
        textOfItems]

theorem textOfItems_normalize_nested (f : Fragment) :
    textOfItems (f.normalize false).value = f.textContent := by
  induction f using Fragment.induction with
  | leaf s => exact (textOfItems_singleton _).trans (textContent_textNode s)
  | other v => exact textOfItems_singleton v
  | node record =>
      have hkept : Kept false (.obj record) := fun h => absurd h.1 (by decide)
      rw [Fragment.normalize, normalize_of_kept hkept]
      exact textOfItems_singleton _
  | sequence parts ih =>
      rw [Fragment.normalize, Fragment.value_normalizeParts, Fragment.textContent, Fragment.toJson,
        Fragment.toList_eq_map]
      exact textOfItems_flatMap ih

/-- The values that normalizing comes to in a flat list: those in arrays, and the children of the
blocks among them. -/
inductive Reaches : Json → Json → Prop where
  | self (v : Json) : Reaches v v
  | item {items : List Json} {v w : Json} (hv : v ∈ items) (h : Reaches v w) :
      Reaches (.arr items) w
  | child {record : Json.Members} {v w : Json} (htype : type? (.obj record) = some wrapperType)
      (hchildren : record.lookup "children" = some v) (h : Reaches v w) : Reaches (.obj record) w

/-- No block that normalizing comes to has a `value`. -/
def BlocksWithoutValue (v : Json) : Prop :=
  ∀ record : Json.Members, Reaches v (.obj record) → type? (.obj record) = some wrapperType →
    record.lookup "value" = none

theorem textOfItems_normalize_flat {v : Json} (h : BlocksWithoutValue v) :
    textOfItems (v.normalize true).value = v.textContent := by
  induction v using normal_induction true with
  | text s => exact (textOfItems_singleton _).trans (textContent_textNode s)
  | kept v hkept =>
      rw [normalize_of_kept hkept]
      exact textOfItems_singleton v
  | list items ih =>
      rw [Json.normalize, normalizeItems_eq, Json.textContent]
      refine (textOfItems_flatMap (g := id) fun v hv => ?_).trans (by rw [List.map_id])
      exact ih v hv fun record hrecord => h record (.item hv hrecord)
  | opened record _ htype ih =>
      have hvalue := h record (.self _) htype
      rw [normalize_wrapper htype, Json.textContent, Json.textUnder?_eq, Json.textUnder?_eq, hvalue]
      cases hchildren : record.lookup "children" with
      | none => rfl
      | some v =>
          exact ih v hchildren fun inner hinner => h inner (.child htype hchildren hinner)

/-- Lists have the text of what they were made from, flat ones as long as no block had a value of
its own. -/
theorem text_normalize :
    (∀ f : Fragment, (Json.arr (f.normalize false).value).textContent = f.textContent) ∧
      ∀ v : Json, BlocksWithoutValue v →
        (Json.arr ((Fragment.ofJson v).normalize true).value).textContent =
          (Fragment.ofJson v).textContent := by
  refine ⟨textOfItems_normalize_nested, fun v h => ?_⟩
  rw [← Fragment.normalize_toJson true (Fragment.isClassified_ofJson v), Fragment.textContent,
    Fragment.toJson_ofJson, Json.textContent]
  exact textOfItems_normalize_flat h

theorem BlocksWithoutValue.arr {items : List Json} (h : ∀ v ∈ items, BlocksWithoutValue v) :
    BlocksWithoutValue (.arr items) := by
  intro record hreach
  cases hreach with
  | item hv hreach => exact h _ hv record hreach

theorem BlocksWithoutValue.obj {record : Json.Members}
    (hvalue : type? (.obj record) = some wrapperType → record.lookup "value" = none)
    (hchildren : ∀ v, type? (.obj record) = some wrapperType → record.lookup "children" = some v →
      BlocksWithoutValue v) : BlocksWithoutValue (.obj record) := by
  intro inner hreach
  cases hreach with
  | self => exact hvalue
  | child htype hv hreach => exact hchildren _ htype hv inner hreach

theorem BlocksWithoutValue.of_kept {v : Json} (h : Kept true v) : BlocksWithoutValue v := by
  cases v with
  | str _ | arr _ => exact h.elim
  | obj record =>
      exact .obj (fun htype => absurd ⟨rfl, htype⟩ h) fun _ htype => absurd ⟨rfl, htype⟩ h
  | null | bool _ | num _ =>
      intro record hreach
      cases hreach

/-- Code, which has a value, beside a block. -/
def codeAndBlock : Json :=
  .arr [.obj [("type", .str "inlineCode"), ("value", .str "b")], mixedBlock]

theorem text_normalize_codeAndBlock :
    BlocksWithoutValue codeAndBlock ∧
      (Json.arr ((Fragment.ofJson codeAndBlock).normalize true).value).textContent = "ba" := by
  have htext : BlocksWithoutValue (.str "a") := by
    intro record hreach
    cases hreach
  have hlist : BlocksWithoutValue (.arr [.null]) :=
    .arr (List.forall_mem_singleton.mpr (.of_kept trivial))
  have hchildren : BlocksWithoutValue (.arr [.str "a", .arr [.null]]) :=
    .arr (List.forall_mem_cons.mpr ⟨htext, List.forall_mem_singleton.mpr hlist⟩)
  have hblock : BlocksWithoutValue mixedBlock := by
    refine .obj (fun _ => rfl) fun v _ hv => ?_
    cases hv
    exact hchildren
  have hcode : BlocksWithoutValue (.obj [("type", .str "inlineCode"), ("value", .str "b")]) :=
    .of_kept fun h => absurd (Option.some.inj h.2) (by decide)
  have h : BlocksWithoutValue codeAndBlock :=
    .arr (List.forall_mem_cons.mpr ⟨hcode, List.forall_mem_singleton.mpr hblock⟩)
  exact ⟨h, (text_normalize.2 codeAndBlock h).trans (by decide)⟩

end DocTree
