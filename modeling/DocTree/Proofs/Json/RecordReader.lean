import DocTree.Proofs.Json.Record
import DocTree.Proofs.Json.Skip

/-!
Reading a record while its text is scanned agrees with reading the value of the text first, if the
same holds of the fields: either way the same record is found, or none. A record is found in more
texts than spell a value, since members with other keys are only passed over.
-/

namespace DocTree

namespace Json

/-- A reader of texts agrees with a decoder of values: on a text that spells a value it finds what
the value is decoded to, and leaves the text behind the value. -/
def Agrees {α : Type} (k room : Nat) (read : List Char → Except ReadError (α × List Char))
    (decode : Json → Option α) : Prop :=
  ∀ ⦃cs v rest⦄, readValue k room cs = .ok (v, rest) →
    (read cs).toOption = (decode v).map (·, rest)

/-- A reader finds only what some value that nests no deeper than `room` is decoded to. -/
def Sound {α : Type} (room : Nat) (read : List Char → Except ReadError (α × List Char))
    (decode : Json → Option α) : Prop :=
  ∀ ⦃cs a rest⦄, read cs = .ok (a, rest) → ∃ v, v.depth ≤ room ∧ decode v = some a

namespace RecordShape

variable {F : Type} [DecidableEq F] {σ : Type} {shape : RecordShape F}
  {readField : F → σ → List Char → Except ReadError (σ × List Char)}
  {setField? : F → σ → Json → Option σ} {k room : Nat}

/-- One member is read: it is passed over, refused, or sets a field. -/
theorem readMembers_item {steps : Nat} {first : Bool} {seen : List F} {r : σ}
    {cs next afterKey colon : List Char} {key : String}
    (hnext : nextKey first cs = .ok (.item next)) (hkey : readKey next = .ok (key, afterKey))
    (hcolon : readColon afterKey = .ok colon) :
    (shape.readMembers readField (steps + 1) first seen r cs).toOption =
      match shape.field? key with
      | none =>
        (skipValue steps colon).toOption.bind fun after =>
          (shape.readMembers readField steps false seen r after).toOption
      | some f =>
        if f ∈ seen then none
        else (readField f r colon).toOption.bind fun (r, after) =>
          (shape.readMembers readField steps false (f :: seen) r after).toOption := by
  rw [readMembers, hnext]
  simp only [bind, Except.bind, hkey]
  cases shape.field? key with
  | none =>
      simp only [hcolon]
      exact toOption_bind _ _
  | some f =>
      simp only [hcolon]
      split
      · rfl
      · exact toOption_bind _ _

omit [DecidableEq F] in
theorem readItems_item {f : F} {fields : List F} {first : Bool} {r : σ} {cs next : List Char}
    (hnext : nextItem first cs = .ok (.item next)) :
    (shape.readItems readField (f :: fields) first r cs).toOption =
      (readField f r next).toOption.bind fun (r, after) =>
        (shape.readItems readField fields false r after).toOption := by
  rw [readItems, hnext]
  exact toOption_bind (readField f r next) _

/-- Where another item follows, an array is not closed. -/
theorem readClosed_of_item {first : Bool} {cs next : List Char}
    (hnext : nextItem first cs = .ok (.item next)) : (readClosed cs).toOption = none := by
  obtain ⟨hclose, hnil, hblanks⟩ := nextItem_item hnext
  unfold readClosed
  split
  · rfl
  · next hskip =>
      rw [hskip] at hblanks
      cases first with
      | true => exact absurd hblanks.symm (hclose _)
      | false =>
          obtain ⟨_, h, _⟩ := hblanks
          cases h
  · split <;> rfl
  · rfl

section agreement

variable (hfield : ∀ f r, Agrees k room (readField f r) (setField? f r))

include hfield

theorem readMembers_toOption {j steps : Nat} (hj : j ≤ k) (hsteps : j ≤ steps) {first : Bool}
    {seen : List F} {r : σ} {cs rest : List Char} {members : Members}
    (h : Json.readMembers j room first cs = .ok (members, rest)) :
    (shape.readMembers readField steps first seen r cs).toOption =
      (shape.ofMembers? setField? seen r members).map (·, rest) := by
  induction j generalizing steps first seen r cs members with
  | zero => cases h
  | succ j ih =>
      obtain ⟨steps, rfl⟩ : ∃ n, steps = n + 1 := ⟨steps - 1, by omega⟩
      have hj : j ≤ k := Nat.le_of_succ_le hj
      have hsteps : j ≤ steps := Nat.le_of_succ_le_succ hsteps
      rcases readMembers_succ.mp h with ⟨rfl, hnext⟩ | ⟨key, v, more, next, afterKey, colon, after,
        rfl, hnext, hkey, hcolon, hv, hmore⟩
      · rw [readMembers, hnext, ofMembers?]
        simp only [bind, Except.bind]
        cases shape.missing? seen <;> rfl
      · rw [readMembers_item hnext hkey hcolon, ofMembers?]
        cases shape.field? key with
        | none =>
            simp only [skipValue_of_readValue hsteps hv]
            exact ih hj hsteps hmore
        | some f =>
            have hread := hfield f r (readValue_mono hj hv)
            simp only [hread]
            split
            · rfl
            · cases setField? f r v with
              | none => rfl
              | some r' => exact ih hj hsteps hmore

omit [DecidableEq F] in
theorem readItems_toOption {j : Nat} (hj : j ≤ k) {remaining : List F} {first : Bool} {r : σ}
    {cs rest : List Char} {items : List Json}
    (h : Json.readItems j room first cs = .ok (items, rest)) :
    (shape.readItems readField remaining first r cs).toOption =
      (shape.ofItems? setField? remaining r items).map (·, rest) := by
  induction j generalizing remaining first r cs items with
  | zero => cases h
  | succ j ih =>
      have hj : j ≤ k := Nat.le_of_succ_le hj
      rcases readItems_succ.mp h with ⟨rfl, hnext⟩ | ⟨v, more, next, after, rfl, hnext, hv, hmore⟩
      · cases remaining with
        | nil =>
            have hclosed : readClosed cs = .ok rest := by
              simp only [readClosed, nextItem_stop hnext]
            rw [readItems, hclosed]
            rfl
        | cons f remaining =>
            rw [readItems, hnext, ofItems?]
            simp only [bind, Except.bind]
            split <;> rfl
      · cases remaining with
        | nil =>
            rw [readItems, toOption_bind, readClosed_of_item hnext]
            rfl
        | cons f remaining =>
            have hread := hfield f r (readValue_mono hj hv)
            rw [readItems_item hnext, hread, ofItems?]
            cases setField? f r v with
            | none => rfl
            | some r' => exact ih hj hmore

end agreement

/-- A record is read as its value is decoded, if that holds of its fields one level below. -/
theorem readFrom_toOption {readField : Nat → F → σ → List Char → Except ReadError (σ × List Char)}
    {steps : Nat} (hk : k ≤ steps) {initial : σ} {lexeme : Lexeme} {v : Json}
    {cs next rest : List Char}
    (hfield : ∀ below, room = below + 1 →
      ∀ f r, Agrees k below (readField below f r) (setField? f r))
    (h : readValue (k + 1) room cs = .ok (v, rest)) (hlexeme : readLexeme cs = .ok (lexeme, next)) :
    (shape.readFrom readField initial steps room lexeme next).toOption =
      (shape.ofJson? setField? initial v).map (·, rest) := by
  rcases readValue_succ.mp h with ⟨found, hfound, hv⟩ |
    ⟨below, items, _, rfl, rfl, hfound, hitems⟩ |
    ⟨below, members, _, rfl, rfl, hfound, hmembers⟩
  · cases hlexeme.symm.trans hfound
    cases lexeme <;> cases hv <;> rfl
  · cases hlexeme.symm.trans hfound
    exact readItems_toOption (hfield below rfl) (Nat.le_refl k) hitems
  · cases hlexeme.symm.trans hfound
    exact readMembers_toOption (hfield below rfl) (Nat.le_refl k) hk hmembers

section soundness

variable (hfield : ∀ f r, Sound room (readField f r) (setField? f r))

include hfield

/-- The members that set fields already make up the record, without those passed over. -/
theorem exists_members_of_readMembers {steps : Nat} {first : Bool} {seen : List F} {r r' : σ}
    {cs rest : List Char}
    (h : shape.readMembers readField steps first seen r cs = .ok (r', rest)) :
    ∃ members, (∀ member ∈ members, member.2.depth ≤ room) ∧
      shape.ofMembers? setField? seen r members = some r' := by
  induction steps generalizing first seen r cs with
  | zero => cases h
  | succ steps ih =>
      obtain ⟨next | rest', hnext, h⟩ := bind_eq_ok_iff.mp h
      · obtain ⟨⟨key, afterKey⟩, hkey, h⟩ := bind_eq_ok_iff.mp h
        simp only at h
        split at h
        · obtain ⟨colon, _, h⟩ := bind_eq_ok_iff.mp h
          obtain ⟨after, _, h⟩ := bind_eq_ok_iff.mp h
          exact ih h
        · next f hf =>
            split at h
            · cases h
            · next hseen =>
                obtain ⟨colon, _, h⟩ := bind_eq_ok_iff.mp h
                obtain ⟨⟨r₁, after⟩, hread, h⟩ := bind_eq_ok_iff.mp h
                obtain ⟨v, hdepth, hset⟩ := hfield f r hread
                obtain ⟨members, hmembers, hrest⟩ := ih h
                refine ⟨(key, v) :: members, List.forall_mem_cons.mpr ⟨hdepth, hmembers⟩, ?_⟩
                simp only [ofMembers?, hf, if_neg hseen, hset]
                exact hrest
      · simp only at h
        split at h
        · cases h
        · next hmissing =>
            cases h
            exact ⟨[], List.forall_mem_nil _, by simp [ofMembers?, hmissing]⟩

omit [DecidableEq F] in
theorem exists_items_of_readItems {remaining : List F} {first : Bool} {r r' : σ}
    {cs rest : List Char}
    (h : shape.readItems readField remaining first r cs = .ok (r', rest)) :
    ∃ items : List Json, (∀ w ∈ items, w.depth ≤ room) ∧
      shape.ofItems? setField? remaining r items = some r' := by
  induction remaining generalizing first r cs with
  | nil =>
      obtain ⟨_, _, h⟩ := bind_eq_ok_iff.mp h
      cases h
      exact ⟨[], List.forall_mem_nil _, rfl⟩
  | cons f remaining ih =>
      obtain ⟨next | rest', _, h⟩ := bind_eq_ok_iff.mp h
      · obtain ⟨⟨r₁, after⟩, hread, h⟩ := bind_eq_ok_iff.mp h
        obtain ⟨v, hdepth, hset⟩ := hfield f r hread
        obtain ⟨items, hitems, hrest⟩ := ih h
        refine ⟨v :: items, List.forall_mem_cons.mpr ⟨hdepth, hitems⟩, ?_⟩
        rw [ofItems?, hset]
        exact hrest
      · simp only at h
        split at h
        · cases h
        · next hrequired =>
            cases h
            exact ⟨[], List.forall_mem_nil _, if_neg hrequired⟩

end soundness

/-- Whatever record is read is that of a value, if that holds of its fields one level below. -/
theorem exists_json_of_readFrom
    {readField : Nat → F → σ → List Char → Except ReadError (σ × List Char)}
    {steps : Nat} {initial r : σ} {lexeme : Lexeme} {cs rest : List Char}
    (hfield : ∀ below, room = below + 1 →
      ∀ f r, Sound below (readField below f r) (setField? f r))
    (h : shape.readFrom readField initial steps room lexeme cs = .ok (r, rest)) :
    ∃ v, v.depth ≤ room ∧ shape.ofJson? setField? initial v = some r := by
  unfold readFrom at h
  split at h
  · next below =>
      obtain ⟨members, hdepth, hmembers⟩ := exists_members_of_readMembers (hfield below rfl) h
      exact ⟨.obj members, depth_obj_le_iff.mpr hdepth, hmembers⟩
  · next below =>
      obtain ⟨items, hdepth, hitems⟩ := exists_items_of_readItems (hfield below rfl) h
      exact ⟨.arr items, depth_arr_le_iff.mpr hdepth, hitems⟩
  · cases h
  · cases h
  · cases h

section fields

variable {Value : F → Type} {e : σ ≃ ((f : F) → Value f)}
  {decode : (f : F) → Json → Option (Value f)} {f : F}
  {readOne : List Char → Except ReadError (Value f × List Char)}

/-- Reading a value and setting a field to it agrees, if reading the value does. -/
theorem agrees_setBy (h : Agrees k room readOne (decode f)) (r : σ) :
    Agrees k room (fun cs => readOne cs >>= fun (x, rest) => .ok (put e f r x, rest))
      (setBy e decode f r) := by
  intro cs v rest hv
  rw [toOption_bind, h hv, setBy]
  cases decode f v <;> rfl

theorem sound_setBy (h : Sound room readOne (decode f)) (r : σ) :
    Sound room (fun cs => readOne cs >>= fun (x, rest) => .ok (put e f r x, rest))
      (setBy e decode f r) := by
  intro cs r' rest hread
  obtain ⟨⟨x, _⟩, hx, hread⟩ := bind_eq_ok_iff.mp hread
  cases hread
  obtain ⟨v, hdepth, hv⟩ := h hx
  exact ⟨v, hdepth, by rw [setBy, hv]; rfl⟩

end fields

end RecordShape

end Json

end DocTree
