import DocTree.Json.Record
import DocTree.Proofs.Json.Elements
import Mathlib.Logic.Equiv.Basic
import Mathlib.Data.List.Zip

/-!
A record is the same as the values of its fields. What a JSON value stands for as a record is
decided field by field: by the value that an object has under the field's key, or an array at the
field's place. The order of members and the members with other keys have no part in it.
-/

namespace DocTree.Json.RecordShape

/-- Every field is listed once, under a key of its own. -/
structure Lawful {F : Type} (shape : RecordShape F) : Prop where
  complete : ∀ f, f ∈ shape.fields
  nodup : shape.fields.Nodup
  key_injective : Function.Injective shape.key

variable {F : Type} {shape : RecordShape F}

namespace Lawful

theorem of_nodup_keys (complete : ∀ f, f ∈ shape.fields)
    (hkeys : (shape.fields.map shape.key).Nodup) : shape.Lawful where
  complete := complete
  nodup := hkeys.of_map shape.key
  key_injective f g h := List.inj_on_of_nodup_map hkeys (complete f) (complete g) h

variable (hshape : shape.Lawful)

include hshape

theorem field?_eq_some_iff {key : String} {f : F} :
    shape.field? key = some f ↔ shape.key f = key := by
  have found {g : F} (h : shape.field? key = some g) : shape.key g = key :=
    of_decide_eq_true (List.find?_some (p := fun f => decide (shape.key f = key)) h)
  refine ⟨found, fun h => ?_⟩
  have hsome : (shape.field? key).isSome :=
    List.find?_isSome.mpr ⟨f, hshape.complete f, decide_eq_true h⟩
  obtain ⟨g, hg⟩ := Option.isSome_iff_exists.mp hsome
  rwa [← hshape.key_injective ((found hg).trans h.symm)]

theorem field?_eq_none_iff {key : String} :
    shape.field? key = none ↔ ∀ f, shape.key f ≠ key := by
  rw [Option.eq_none_iff_forall_ne_some]
  exact forall_congr' fun f => not_congr hshape.field?_eq_some_iff

theorem missing?_isNone_iff [DecidableEq F] {seen : List F} :
    (shape.missing? seen).isNone ↔ ∀ f, f ∈ seen ∨ shape.required f = false := by
  rw [Option.isNone_iff_eq_none, missing?, List.find?_eq_none]
  constructor
  · intro h f
    by_cases hf : f ∈ seen
    · exact .inl hf
    · exact .inr (by simpa [hf] using h f (hshape.complete f))
  · intro h f _
    rcases h f with hf | hf <;> simp [hf]

theorem lookup_of_unknown {key : String} (hkey : shape.field? key = none) (v : Json)
    (members : Members) (f : F) :
    List.lookup (shape.key f) ((key, v) :: members) = List.lookup (shape.key f) members := by
  rw [List.lookup_cons, beq_false_of_ne (hshape.field?_eq_none_iff.mp hkey f)]

theorem lookup_of_known [DecidableEq F] (f : F) (v : Json) (members : Members) (g : F) :
    List.lookup (shape.key g) ((shape.key f, v) :: members) =
      if g = f then some v else List.lookup (shape.key g) members := by
  by_cases hg : g = f
  · rw [hg, List.lookup_cons_self, if_pos rfl]
  · rw [List.lookup_cons, beq_false_of_ne (hshape.key_injective.ne hg), if_neg hg]

end Lawful

variable [DecidableEq F]

/-- The value that a JSON value gives to each field of a record. An array of more items than there
are fields gives none. -/
def given? (shape : RecordShape F) : Json → Option (F → Option Json)
  | .obj members => some fun f => List.lookup (shape.key f) members
  | .arr items =>
    if items.length ≤ shape.fields.length then
      some fun f => List.lookup f (shape.fields.zip items)
    else none
  | _ => none

omit [DecidableEq F] in
theorem mem_of_lookup_eq_some {α : Type} [BEq α] [LawfulBEq α] {a : α} {w : Json}
    {pairs : List (α × Json)} (h : List.lookup a pairs = some w) : (a, w) ∈ pairs := by
  obtain ⟨_, _, rfl, _⟩ := List.lookup_eq_some_iff.mp h
  exact List.mem_append_right _ List.mem_cons_self

/-- What a value gives to a field stands directly inside it. -/
theorem mem_elements_of_given? {v w : Json} {given : F → Option Json} {f : F}
    (h : shape.given? v = some given) (hf : given f = some w) : w ∈ v.elements := by
  cases v with
  | null | bool _ | num _ | str _ => cases h
  | obj members =>
      cases h
      exact List.mem_map_of_mem (mem_of_lookup_eq_some hf)
  | arr items =>
      simp only [given?] at h
      split at h
      · cases h
        exact (List.of_mem_zip (mem_of_lookup_eq_some hf)).2
      · cases h

/-- A field holds what it was given, or what it has initially where nothing was given. -/
def Holds {α : Type} (decode : Json → Option α) (required : Bool) (initial x : α) :
    Option Json → Prop
  | some v => decode v = some x
  | none => required = false ∧ x = initial

/-- A field can be filled with what it was given. -/
def Accepts {α : Type} (decode : Json → Option α) (required : Bool) : Option Json → Prop
  | some v => (decode v).isSome
  | none => required = false

section fields

variable {σ : Type} {Value : F → Type} (e : σ ≃ ((f : F) → Value f))
  (decode : (f : F) → Json → Option (Value f))

/-- The record with another value of one field. -/
def put (f : F) (r : σ) (x : Value f) : σ := e.symm (Function.update (e r) f x)

/-- Sets a field from a value. -/
def setBy (f : F) (r : σ) (v : Json) : Option σ := (decode f v).map (put e f r)

/-- A field holds what it was given, except that the fields in `past` are not given again: they
stay as they are. -/
def FilledAfter (shape : RecordShape F) (past : F → Prop) (r r' : σ) (f : F) : Option Json → Prop
  | some v => ¬past f ∧ decode f v = some (e r' f)
  | none => (past f ∨ shape.required f = false) ∧ e r' f = e r f

variable {e decode} {r r' : σ}

theorem apply_put_self (f : F) (r : σ) (x : Value f) : e (put e f r x) f = x := by
  rw [put, Equiv.apply_symm_apply, Function.update_self]

theorem apply_put_of_ne {f g : F} (hg : g ≠ f) (r : σ) (x : Value f) :
    e (put e f r x) g = e r g := by
  rw [put, Equiv.apply_symm_apply, Function.update_of_ne hg]

omit [DecidableEq F] in
theorem filledAfter_nothing {past : F → Prop} (hpast : ∀ f, ¬past f) (f : F)
    (given : Option Json) :
    FilledAfter e decode shape past r r' f given ↔
      Holds (decode f) (shape.required f) (e r f) (e r' f) given := by
  cases given <;> simp [FilledAfter, Holds, hpast]

theorem setBy_eq_some_iff {f : F} {v : Json} :
    setBy e decode f r v = some r' ↔
      decode f v = some (e r' f) ∧ ∀ g, g ≠ f → e r' g = e r g := by
  rw [setBy, Option.map_eq_some_iff]
  constructor
  · rintro ⟨x, hx, rfl⟩
    exact ⟨by rw [hx, apply_put_self], fun g hg => apply_put_of_ne hg r x⟩
  · rintro ⟨hdecode, hsame⟩
    refine ⟨_, hdecode, e.injective (funext fun g => ?_)⟩
    by_cases hg : g = f
    · subst hg
      exact apply_put_self g r _
    · rw [apply_put_of_ne hg, hsame g hg]

/-- One field is set: it is given now, and belongs to the past from then on. -/
theorem exists_set_and_filledAfter_iff {past : F → Prop} {f : F} (hf : ¬past f) {v : Json}
    {given : F → Option Json} :
    (∃ r₁, setBy e decode f r v = some r₁ ∧
        ∀ g, FilledAfter e decode shape (fun g => g = f ∨ past g) r₁ r' g (given g)) ↔
      given f = none ∧
        ∀ g, FilledAfter e decode shape past r r' g (if g = f then some v else given g) := by
  constructor
  · rintro ⟨r₁, hr₁, hfilled⟩
    obtain ⟨hdecode, hsame⟩ := setBy_eq_some_iff.mp hr₁
    have hnone : given f = none := by
      cases hgiven : given f with
      | none => rfl
      | some w =>
          have h := hfilled f
          rw [hgiven] at h
          exact absurd (.inl rfl) h.1
    refine ⟨hnone, fun g => ?_⟩
    have h := hfilled g
    by_cases hg : g = f
    · subst hg
      rw [hnone] at h
      rw [if_pos rfl]
      exact ⟨hf, by rw [h.2, hdecode]⟩
    · rw [if_neg hg]
      cases hgiven : given g with
      | none =>
          rw [hgiven] at h
          exact ⟨h.1.imp_left fun h => h.resolve_left hg, h.2.trans (hsame g hg)⟩
      | some w =>
          rw [hgiven] at h
          exact ⟨fun hpast => h.1 (.inr hpast), h.2⟩
  · rintro ⟨hnone, hfilled⟩
    have hdecode := hfilled f
    rw [if_pos rfl] at hdecode
    refine ⟨put e f r (e r' f), by rw [setBy, hdecode.2]; rfl, fun g => ?_⟩
    have h := hfilled g
    by_cases hg : g = f
    · subst hg
      rw [hnone]
      exact ⟨.inl (.inl rfl), (apply_put_self g r _).symm⟩
    · rw [if_neg hg] at h
      cases hgiven : given g with
      | none =>
          rw [hgiven] at h
          exact ⟨h.1.imp_left .inr, h.2.trans (apply_put_of_ne hg r _).symm⟩
      | some w =>
          rw [hgiven] at h
          exact ⟨fun hpast => hpast.elim hg h.1, h.2⟩

variable (hshape : shape.Lawful)

include hshape

theorem filledAfter_of_ofMembers? {seen : List F} {members : Members}
    (h : shape.ofMembers? (setBy e decode) seen r members = some r') (f : F) :
    FilledAfter e decode shape (· ∈ seen) r r' f (List.lookup (shape.key f) members) := by
  induction members generalizing seen r f with
  | nil =>
      simp only [ofMembers?] at h
      split at h
      · next hmissing =>
          cases h
          exact ⟨hshape.missing?_isNone_iff.mp hmissing f, rfl⟩
      · cases h
  | cons member members ih =>
      obtain ⟨key, v⟩ := member
      simp only [ofMembers?] at h
      split at h
      · next hfield =>
          rw [hshape.lookup_of_unknown hfield]
          exact ih h f
      · next g hfield =>
          obtain rfl := hshape.field?_eq_some_iff.mp hfield
          split at h
          · cases h
          · next hg =>
              obtain ⟨r₁, hr₁, h⟩ := Option.bind_eq_some_iff.mp h
              have hfilled := ih h
              simp only [List.mem_cons] at hfilled
              rw [hshape.lookup_of_known]
              exact ((exists_set_and_filledAfter_iff hg).mp ⟨r₁, hr₁, hfilled⟩).2 f

theorem ofMembers?_of_filledAfter {seen : List F} {members : Members}
    (hkeys : (members.map Prod.fst).Nodup)
    (hfilled : ∀ f,
      FilledAfter e decode shape (· ∈ seen) r r' f (List.lookup (shape.key f) members)) :
    shape.ofMembers? (setBy e decode) seen r members = some r' := by
  induction members generalizing seen r with
  | nil =>
      have hmissing : (shape.missing? seen).isNone :=
        hshape.missing?_isNone_iff.mpr fun f => (hfilled f).1
      have hr : r = r' := e.injective (funext fun f => (hfilled f).2.symm)
      simp [ofMembers?, hmissing, hr]
  | cons member members ih =>
      obtain ⟨key, v⟩ := member
      obtain ⟨hkey, hmembers⟩ := List.nodup_cons.mp hkeys
      simp only [ofMembers?]
      split
      · next hfield =>
          simp only [hshape.lookup_of_unknown hfield] at hfilled
          exact ih hmembers hfilled
      · next f hfield =>
          obtain rfl := hshape.field?_eq_some_iff.mp hfield
          simp only [hshape.lookup_of_known] at hfilled
          have hf : f ∉ seen := by
            have h := hfilled f
            rw [if_pos rfl] at h
            exact h.1
          have habsent : List.lookup (shape.key f) members = none := by
            refine List.lookup_eq_none_iff.mpr fun member hmember => ?_
            exact bne_iff_ne.mpr fun h => hkey (List.mem_map.mpr ⟨member, hmember, h.symm⟩)
          obtain ⟨r₁, hr₁, hrest⟩ :=
            (exists_set_and_filledAfter_iff hf).mpr ⟨habsent, hfilled⟩
          rw [if_neg hf]
          refine Option.bind_eq_some_iff.mpr ⟨r₁, hr₁, ih hmembers ?_⟩
          simpa only [List.mem_cons] using hrest

omit hshape in
/-- For an array, the fields of the past are those that no longer remain. -/
theorem ofItems?_eq_some_iff {remaining : List F} (hremaining : remaining.Nodup)
    {items : List Json} :
    shape.ofItems? (setBy e decode) remaining r items = some r' ↔
      items.length ≤ remaining.length ∧
        ∀ f, FilledAfter e decode shape (· ∉ remaining) r r' f
          (List.lookup f (remaining.zip items)) := by
  induction items generalizing remaining r with
  | nil =>
      simp only [ofItems?, List.zip_nil_right, List.lookup_nil, FilledAfter]
      constructor
      · intro h
        split at h
        · cases h
        · next hnone =>
            cases h
            refine ⟨Nat.zero_le _, fun f => ⟨?_, rfl⟩⟩
            by_cases hf : f ∈ remaining
            · exact .inr (by simpa using fun hf' => hnone (List.any_eq_true.mpr ⟨f, hf, hf'⟩))
            · exact .inl hf
      · rintro ⟨_, h⟩
        have hnone : remaining.any shape.required = false :=
          List.any_eq_false.mpr fun f hf => by simpa [hf] using (h f).1
        have hr : r = r' := e.injective (funext fun f => (h f).2.symm)
        simp [hnone, hr]
  | cons v items ih =>
      cases remaining with
      | nil => simp [ofItems?]
      | cons f remaining =>
          obtain ⟨hf, hremaining⟩ := List.nodup_cons.mp hremaining
          have hpast (g : F) : (g = f ∨ g ∉ f :: remaining) ↔ g ∉ remaining := by
            by_cases hg : g = f <;> simp [hg, hf]
          have habsent : List.lookup f (remaining.zip items) = none := by
            refine List.lookup_eq_none_iff.mpr fun pair hpair => bne_iff_ne.mpr fun h => hf ?_
            rw [h]
            exact (List.of_mem_zip hpair).1
          have hstep : (∃ r₁, setBy e decode f r v = some r₁ ∧
              ∀ g, FilledAfter e decode shape (fun g => g = f ∨ g ∉ f :: remaining) r₁ r' g
                (List.lookup g (remaining.zip items))) ↔ _ :=
            exists_set_and_filledAfter_iff (fun h => h List.mem_cons_self)
          simp only [hpast, habsent, true_and] at hstep
          have hlookup (g : F) :
              List.lookup g ((f :: remaining).zip (v :: items)) =
                if g = f then some v else List.lookup g (remaining.zip items) := by
            by_cases hg : g = f
            · rw [List.zip_cons_cons, hg, List.lookup_cons_self, if_pos rfl]
            · rw [List.zip_cons_cons, List.lookup_cons, beq_false_of_ne hg, if_neg hg]
          simp only [ofItems?, Option.bind_eq_bind, Option.bind_eq_some_iff, ih hremaining, hlookup,
            ← hstep, List.length_cons, Nat.add_le_add_iff_right]
          exact ⟨fun ⟨r₁, hr₁, hlen, hfilled⟩ => ⟨hlen, r₁, hr₁, hfilled⟩,
            fun ⟨hlen, r₁, hr₁, hfilled⟩ => ⟨r₁, hr₁, hlen, hfilled⟩⟩

/-- Whatever is decoded as a record gives its fields what they hold. -/
theorem filled_of_ofJson? {v : Json} (h : shape.ofJson? (setBy e decode) r v = some r') :
    ∃ given, shape.given? v = some given ∧
      ∀ f, Holds (decode f) (shape.required f) (e r f) (e r' f) (given f) := by
  cases v with
  | null | bool _ | num _ | str _ => cases h
  | obj members =>
      refine ⟨_, rfl, fun f => ?_⟩
      exact (filledAfter_nothing (fun _ => List.not_mem_nil) f _).mp
        (filledAfter_of_ofMembers? hshape h f)
  | arr items =>
      obtain ⟨hlen, hfilled⟩ := (ofItems?_eq_some_iff hshape.nodup).mp h
      refine ⟨_, if_pos hlen, fun f => ?_⟩
      exact (filledAfter_nothing (fun f => not_not_intro (hshape.complete f)) f _).mp (hfilled f)

/-- A value is decoded as the record that it fills, if it has no key twice. -/
theorem ofJson?_of_filled {v : Json} {given : F → Option Json}
    (hkeys : ∀ members, v = .obj members → (members.map Prod.fst).Nodup)
    (hgiven : shape.given? v = some given)
    (hfilled : ∀ f, Holds (decode f) (shape.required f) (e r f) (e r' f) (given f)) :
    shape.ofJson? (setBy e decode) r v = some r' := by
  cases v with
  | null | bool _ | num _ | str _ => cases hgiven
  | obj members =>
      cases hgiven
      refine ofMembers?_of_filledAfter hshape (hkeys members rfl) fun f => ?_
      exact (filledAfter_nothing (fun _ => List.not_mem_nil) f _).mpr (hfilled f)
  | arr items =>
      simp only [given?] at hgiven
      split at hgiven
      · next hlen =>
          cases hgiven
          refine (ofItems?_eq_some_iff hshape.nodup).mpr ⟨hlen, fun f => ?_⟩
          exact (filledAfter_nothing (fun f => not_not_intro (hshape.complete f)) f _).mpr
            (hfilled f)
      · cases hgiven

/-- A value is some record if each field accepts what it is given. -/
theorem exists_ofJson?_iff {v : Json}
    (hkeys : ∀ members, v = .obj members → (members.map Prod.fst).Nodup) :
    (∃ r', shape.ofJson? (setBy e decode) r v = some r') ↔
      ∃ given, shape.given? v = some given ∧
        ∀ f, Accepts (decode f) (shape.required f) (given f) := by
  constructor
  · rintro ⟨r', h⟩
    obtain ⟨given, hgiven, hholds⟩ := filled_of_ofJson? hshape h
    refine ⟨given, hgiven, fun f => ?_⟩
    have hf := hholds f
    cases hw : given f with
    | none =>
        rw [hw] at hf
        exact hf.1
    | some w =>
        rw [hw] at hf
        exact Option.isSome_iff_exists.mpr ⟨_, hf⟩
  · rintro ⟨given, hgiven, haccepts⟩
    have hfill (f : F) :
        ∃ x, Holds (decode f) (shape.required f) (e r f) x (given f) := by
      have hf := haccepts f
      cases hw : given f with
      | none =>
          rw [hw] at hf
          exact ⟨e r f, hf, rfl⟩
      | some w =>
          rw [hw] at hf
          exact Option.isSome_iff_exists.mp hf
    choose x hx using hfill
    refine ⟨e.symm x, ofJson?_of_filled hshape hkeys hgiven fun f => ?_⟩
    rw [Equiv.apply_symm_apply]
    exact hx f

end fields

end DocTree.Json.RecordShape
