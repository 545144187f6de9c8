import DocTree.Json.Reader
import DocTree.Proofs.Except

/-!
What a successful reading of a value tells. The count of steps only bounds the loops: a reading
that ends with fewer steps ends in the same way with more. A value nests no deeper than there was
room for.
-/

namespace DocTree

namespace Json

/-- The value of a lexeme that is a whole scalar. -/
def Lexeme.scalar? : Lexeme → Option Json
  | .null => some .null
  | .bool b => some (.bool b)
  | .num n => some (.num n)
  | .str s => some (.str s)
  | .openList | .openObject => none

/-- How the text of a value begins. -/
def lexeme : Json → Lexeme
  | .null => .null
  | .bool b => .bool b
  | .num n => .num n
  | .str s => .str s
  | .arr _ => .openList
  | .obj _ => .openObject

variable {k room : Nat} {first : Bool} {cs rest : List Char}

/-- A value that was read is a scalar, or a container whose parts were read one level below. -/
theorem readValue_succ {v : Json} :
    readValue (k + 1) room cs = .ok (v, rest) ↔
      (∃ lexeme, readLexeme cs = .ok (lexeme, rest) ∧ lexeme.scalar? = some v) ∨
      (∃ r items next, room = r + 1 ∧ v = .arr items ∧ readLexeme cs = .ok (.openList, next) ∧
        readItems k r true next = .ok (items, rest)) ∨
      ∃ r members next, room = r + 1 ∧ v = .obj members ∧
        readLexeme cs = .ok (.openObject, next) ∧
        readMembers k r true next = .ok (members, rest) := by
  rw [readValue, bind_eq_ok_iff]
  constructor
  · rintro ⟨⟨lexeme, next⟩, hlexeme, h⟩
    cases lexeme with
    | null | bool _ | num _ | str _ =>
        cases h
        exact .inl ⟨_, hlexeme, rfl⟩
    | openList =>
        cases room with
        | zero => cases h
        | succ r =>
            obtain ⟨⟨items, _⟩, hitems, h⟩ := bind_eq_ok_iff.mp h
            cases h
            exact .inr (.inl ⟨r, items, next, rfl, rfl, hlexeme, hitems⟩)
    | openObject =>
        cases room with
        | zero => cases h
        | succ r =>
            obtain ⟨⟨members, _⟩, hmembers, h⟩ := bind_eq_ok_iff.mp h
            cases h
            exact .inr (.inr ⟨r, members, next, rfl, rfl, hlexeme, hmembers⟩)
  · rintro (⟨lexeme, hlexeme, hv⟩ | ⟨r, items, next, rfl, rfl, hlexeme, hitems⟩ |
      ⟨r, members, next, rfl, rfl, hlexeme, hmembers⟩)
    · refine ⟨_, hlexeme, ?_⟩
      cases lexeme <;> cases hv <;> rfl
    · exact ⟨_, hlexeme, bind_eq_ok_iff.mpr ⟨_, hitems, rfl⟩⟩
    · exact ⟨_, hlexeme, bind_eq_ok_iff.mpr ⟨_, hmembers, rfl⟩⟩

theorem readLexeme_of_readValue {v : Json}
    (h : readValue k room cs = .ok (v, rest)) :
    ∃ next, readLexeme cs = .ok (v.lexeme, next) ∧ (v.lexeme.scalar? = some v → next = rest) := by
  cases k with
  | zero => cases h
  | succ k =>
      rcases readValue_succ.mp h with ⟨lexeme, hl, hv⟩ | ⟨_, items, next, _, rfl, hl, _⟩ |
        ⟨_, members, next, _, rfl, hl, _⟩
      · have hlexeme : lexeme = v.lexeme := by cases lexeme <;> cases hv <;> rfl
        exact ⟨rest, hlexeme ▸ hl, fun _ => rfl⟩
      · exact ⟨next, hl, fun h => nomatch h⟩
      · exact ⟨next, hl, fun h => nomatch h⟩

theorem readItems_succ {vs : List Json} :
    readItems (k + 1) room first cs = .ok (vs, rest) ↔
      (vs = [] ∧ nextItem first cs = .ok (.stop rest)) ∨
      ∃ v more next after, vs = v :: more ∧ nextItem first cs = .ok (.item next) ∧
        readValue k room next = .ok (v, after) ∧
        readItems k room false after = .ok (more, rest) := by
  rw [readItems, bind_eq_ok_iff]
  constructor
  · rintro ⟨next | _, hnext, h⟩
    · obtain ⟨⟨v, after⟩, hv, h⟩ := bind_eq_ok_iff.mp h
      obtain ⟨⟨more, _⟩, hmore, h⟩ := bind_eq_ok_iff.mp h
      cases h
      exact .inr ⟨v, more, next, after, rfl, hnext, hv, hmore⟩
    · cases h
      exact .inl ⟨rfl, hnext⟩
  · rintro (⟨rfl, hnext⟩ | ⟨v, more, next, after, rfl, hnext, hv, hmore⟩)
    · exact ⟨_, hnext, rfl⟩
    · exact ⟨_, hnext, bind_eq_ok_iff.mpr ⟨_, hv, bind_eq_ok_iff.mpr ⟨_, hmore, rfl⟩⟩⟩

theorem readMembers_succ {ms : Members} :
    readMembers (k + 1) room first cs = .ok (ms, rest) ↔
      (ms = [] ∧ nextKey first cs = .ok (.stop rest)) ∨
      ∃ key v more next afterKey colon after, ms = (key, v) :: more ∧
        nextKey first cs = .ok (.item next) ∧ readKey next = .ok (key, afterKey) ∧
        readColon afterKey = .ok colon ∧ readValue k room colon = .ok (v, after) ∧
        readMembers k room false after = .ok (more, rest) := by
  rw [readMembers, bind_eq_ok_iff]
  constructor
  · rintro ⟨next | _, hnext, h⟩
    · obtain ⟨⟨key, afterKey⟩, hkey, h⟩ := bind_eq_ok_iff.mp h
      obtain ⟨colon, hcolon, h⟩ := bind_eq_ok_iff.mp h
      obtain ⟨⟨v, after⟩, hv, h⟩ := bind_eq_ok_iff.mp h
      obtain ⟨⟨more, _⟩, hmore, h⟩ := bind_eq_ok_iff.mp h
      cases h
      exact .inr ⟨key, v, more, next, afterKey, colon, after, rfl, hnext, hkey, hcolon, hv, hmore⟩
    · cases h
      exact .inl ⟨rfl, hnext⟩
  · rintro (⟨rfl, hnext⟩ | ⟨key, v, more, next, afterKey, colon, after, rfl, hnext, hkey, hcolon,
      hv, hmore⟩)
    · exact ⟨_, hnext, rfl⟩
    · refine ⟨_, hnext, bind_eq_ok_iff.mpr ⟨_, hkey, bind_eq_ok_iff.mpr ⟨_, hcolon, ?_⟩⟩⟩
      exact bind_eq_ok_iff.mpr ⟨_, hv, bind_eq_ok_iff.mpr ⟨_, hmore, rfl⟩⟩

/-- One more step changes no reading; the three loops go hand in hand. -/
theorem read_succ (k : Nat) :
    (∀ {room cs v rest}, readValue k room cs = .ok (v, rest) →
        readValue (k + 1) room cs = .ok (v, rest)) ∧
      (∀ {room first cs vs rest}, readItems k room first cs = .ok (vs, rest) →
        readItems (k + 1) room first cs = .ok (vs, rest)) ∧
      ∀ {room first cs ms rest}, readMembers k room first cs = .ok (ms, rest) →
        readMembers (k + 1) room first cs = .ok (ms, rest) := by
  induction k with
  | zero =>
      refine ⟨fun h => ?_, fun h => ?_, fun h => ?_⟩
      all_goals cases h
  | succ k ih =>
      obtain ⟨ihv, ihitems, ihmembers⟩ := ih
      refine ⟨fun h => ?_, fun h => ?_, fun h => ?_⟩
      · rw [readValue_succ] at h ⊢
        rcases h with h | ⟨r, items, next, rfl, rfl, hl, h⟩ | ⟨r, members, next, rfl, rfl, hl, h⟩
        · exact .inl h
        · exact .inr (.inl ⟨r, items, next, rfl, rfl, hl, ihitems h⟩)
        · exact .inr (.inr ⟨r, members, next, rfl, rfl, hl, ihmembers h⟩)
      · rw [readItems_succ] at h ⊢
        rcases h with h | ⟨v, more, next, after, rfl, hnext, hv, hmore⟩
        · exact .inl h
        · exact .inr ⟨v, more, next, after, rfl, hnext, ihv hv, ihitems hmore⟩
      · rw [readMembers_succ] at h ⊢
        rcases h with h | ⟨key, v, more, next, afterKey, colon, after, rfl, hnext, hkey, hcolon, hv,
          hmore⟩
        · exact .inl h
        · exact .inr ⟨key, v, more, next, afterKey, colon, after, rfl, hnext, hkey, hcolon, ihv hv,
            ihmembers hmore⟩

theorem readValue_mono {k k' : Nat} (hk : k ≤ k') {v : Json}
    (h : readValue k room cs = .ok (v, rest)) : readValue k' room cs = .ok (v, rest) := by
  induction hk with
  | refl => exact h
  | step _ ih => exact (read_succ _).1 ih

theorem readMembers_mono {k k' : Nat} (hk : k ≤ k') {ms : Members}
    (h : readMembers k room first cs = .ok (ms, rest)) :
    readMembers k' room first cs = .ok (ms, rest) := by
  induction hk with
  | refl => exact h
  | step _ ih => exact (read_succ _).2.2 ih

/-- What is read fits the room that there was for it. -/
theorem depth_le_of_read (k : Nat) :
    (∀ {room cs v rest}, readValue k room cs = .ok (v, rest) → v.depth ≤ room) ∧
      (∀ {room first cs vs rest}, readItems k room first cs = .ok (vs, rest) →
        depthList vs ≤ room) ∧
      ∀ {room first cs ms rest}, readMembers k room first cs = .ok (ms, rest) →
        depthMembers ms ≤ room := by
  induction k with
  | zero =>
      refine ⟨fun h => ?_, fun h => ?_, fun h => ?_⟩
      all_goals cases h
  | succ k ih =>
      obtain ⟨ihv, ihitems, ihmembers⟩ := ih
      refine ⟨fun h => ?_, fun h => ?_, fun h => ?_⟩
      · rcases readValue_succ.mp h with ⟨lexeme, _, hv⟩ | ⟨r, items, next, rfl, rfl, _, h⟩ |
          ⟨r, members, next, rfl, rfl, _, h⟩
        · cases lexeme <;> cases hv <;> exact Nat.zero_le _
        · exact Nat.succ_le_succ (ihitems h)
        · exact Nat.succ_le_succ (ihmembers h)
      · rcases readItems_succ.mp h with ⟨rfl, _⟩ | ⟨v, more, next, after, rfl, _, hv, hmore⟩
        · exact Nat.zero_le _
        · exact Nat.max_le.mpr ⟨ihv hv, ihitems hmore⟩
      · rcases readMembers_succ.mp h with ⟨rfl, _⟩ | ⟨key, v, more, next, afterKey, colon, after,
          rfl, _, _, _, hv, hmore⟩
        · exact Nat.zero_le _
        · exact Nat.max_le.mpr ⟨ihv hv, ihmembers hmore⟩

theorem depth_le_of_readValue {v : Json} (h : readValue k room cs = .ok (v, rest)) :
    v.depth ≤ room := (depth_le_of_read k).1 h

end Json

end DocTree
