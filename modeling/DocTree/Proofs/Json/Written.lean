import DocTree.Proofs.Json.Scalars
import DocTree.Proofs.Json.Elements
import DocTree.Proofs.Json.Skip

/-!
A written value is read as that value. Both written forms are instances of one, which has blanks
where it is told to; wherever these are, the value is read back, unless it holds a double or nests
deeper than a text may.
-/

namespace DocTree.Json

/-- The blanks of a written form: before an element and before the end of a container inside
`level` containers, and after a colon. -/
structure Spacing where
  before : (level : Nat) → List Char
  afterColon : List Char
  blank_before : ∀ level, ∀ c ∈ before level, isBlank c
  blank_afterColon : ∀ c ∈ afterColon, isBlank c

namespace Spacing

def compact : Spacing where
  before _ := []
  afterColon := []
  blank_before _ := List.forall_mem_nil _
  blank_afterColon := List.forall_mem_nil _

def pretty : Spacing where
  before := newline
  afterColon := [' ']
  blank_before level c h := by
    rcases List.mem_cons.mp h with rfl | h
    · rfl
    · rw [List.eq_of_mem_replicate h]
      rfl
  blank_afterColon c h := by
    rw [List.mem_singleton.mp h]
    rfl

mutual

def chars (s : Spacing) (level : Nat) : Json → List Char
  | .arr [] => ['[', ']']
  | .arr (v :: rest) =>
    '[' :: (s.before (level + 1) ++ (chars s (level + 1) v ++ itemsChars s level rest))
  | .obj [] => ['\x7b', '\x7d']
  | .obj ((k, v) :: rest) =>
    '\x7b' :: (s.before (level + 1) ++ (quoted k ++ ':' ::
      (s.afterColon ++ (chars s (level + 1) v ++ membersChars s level rest))))
  | .null => scalarChars .null
  | .bool b => scalarChars (.bool b)
  | .num n => scalarChars (.num n)
  | .str t => scalarChars (.str t)

/-- The items after the first one and the end of their array. -/
def itemsChars (s : Spacing) (level : Nat) : List Json → List Char
  | [] => s.before level ++ [']']
  | v :: rest =>
    ',' :: (s.before (level + 1) ++ (chars s (level + 1) v ++ itemsChars s level rest))

/-- The members after the first one and the end of their object. -/
def membersChars (s : Spacing) (level : Nat) : Members → List Char
  | [] => s.before level ++ ['\x7d']
  | (k, v) :: rest =>
    ',' :: (s.before (level + 1) ++ (quoted k ++ ':' ::
      (s.afterColon ++ (chars s (level + 1) v ++ membersChars s level rest))))

end

mutual

theorem compactChars_eq (level : Nat) (v : Json) : compactChars v = chars compact level v := by
  match v with
  | .arr [] | .obj [] | .null | .bool _ | .num _ | .str _ => rfl
  | .arr (v :: rest) =>
      rw [compactChars, chars, compactChars_eq (level + 1) v, compactItems_eq level rest]
      rfl
  | .obj ((k, v) :: rest) =>
      rw [compactChars, chars, compactChars_eq (level + 1) v, compactMembers_eq level rest]
      simp [compact]

theorem compactItems_eq (level : Nat) (items : List Json) :
    compactItems items = itemsChars compact level items := by
  match items with
  | [] => rfl
  | v :: rest =>
      rw [compactItems, itemsChars, compactChars_eq (level + 1) v, compactItems_eq level rest]
      rfl

theorem compactMembers_eq (level : Nat) (members : Members) :
    compactMembers members = membersChars compact level members := by
  match members with
  | [] => rfl
  | (k, v) :: rest =>
      rw [compactMembers, membersChars, compactChars_eq (level + 1) v, compactMembers_eq level rest]
      simp [compact]

end

mutual

theorem prettyChars_eq (level : Nat) (v : Json) : prettyChars level v = chars pretty level v := by
  match v with
  | .arr [] | .obj [] | .null | .bool _ | .num _ | .str _ => rfl
  | .arr (v :: rest) =>
      rw [prettyChars, chars, prettyChars_eq (level + 1) v, prettyItems_eq level rest]
      simp [pretty]
  | .obj ((k, v) :: rest) =>
      rw [prettyChars, chars, prettyChars_eq (level + 1) v, prettyMembers_eq level rest]
      simp [pretty]

theorem prettyItems_eq (level : Nat) (items : List Json) :
    prettyItems level items = itemsChars pretty level items := by
  match items with
  | [] => rfl
  | v :: rest =>
      rw [prettyItems, itemsChars, prettyChars_eq (level + 1) v, prettyItems_eq level rest]
      simp [pretty]

theorem prettyMembers_eq (level : Nat) (members : Members) :
    prettyMembers level members = membersChars pretty level members := by
  match members with
  | [] => rfl
  | (k, v) :: rest =>
      rw [prettyMembers, membersChars, prettyChars_eq (level + 1) v, prettyMembers_eq level rest]
      simp [pretty]

end

variable {s : Spacing} {level : Nat}

theorem skipBlanks_append {bs cs : List Char} (h : ∀ c ∈ bs, isBlank c) :
    skipBlanks (bs ++ cs) = skipBlanks cs := by
  rw [skipBlanks, List.dropWhile_append_of_pos h, skipBlanks]

theorem skipBlanks_cons {c : Char} (h : isBlank c = false) (cs : List Char) :
    skipBlanks (c :: cs) = c :: cs := List.dropWhile_cons_of_neg (by simp [h])

theorem ne_of_numeric {c d : Char} (hc : c = '-' ∨ isDigit c) (hd : isDigit d = false)
    (hminus : d ≠ '-') : c ≠ d := by
  rintro rfl
  rcases hc with hc | hc
  · exact hminus hc
  · rw [hd] at hc
    cases hc

theorem isBlank_of_numeric {c : Char} (hc : c = '-' ∨ isDigit c) : isBlank c = false := by
  simp [isBlank, ne_of_numeric hc (d := ' ') rfl (by decide),
    ne_of_numeric hc (d := '\t') rfl (by decide), ne_of_numeric hc (d := '\n') rfl (by decide),
    ne_of_numeric hc (d := '\r') rfl (by decide)]

theorem readLexeme_numeric {c : Char} (hc : c = '-' ∨ isDigit c) (cs : List Char) :
    readLexeme (c :: cs) = readNumber (c :: cs) >>= fun (n, rest) => .ok (.num n, rest) := by
  have hnumber : (c = '-' || isDigit c) = true := by simpa using hc
  unfold readLexeme
  rw [skipBlanks_cons (isBlank_of_numeric hc)]
  split
  case h_8 heq =>
    cases heq
    rw [if_pos hnumber]
  case h_1 heq => cases heq
  all_goals
    next heq => exact absurd (List.cons.inj heq).1 (ne_of_numeric hc (by decide) (by decide))

theorem exists_text_eq_cons (n : Integer) :
    ∃ c cs, (Number.int n).text.toList = c :: cs ∧ (c = '-' ∨ isDigit c) := by
  rw [text_integer]
  split
  · exact ⟨_, _, rfl, .inl rfl⟩
  · cases hdigits : Nat.toDigits 10 n.val.natAbs with
    | nil => exact absurd hdigits Nat.toDigits_ne_nil
    | cons c cs =>
        exact ⟨c, cs, rfl, .inr (isDigit_of_mem_toDigits (hdigits ▸ List.mem_cons_self))⟩

/-- A written value begins with a character that is no blank and closes no array. -/
theorem exists_chars_eq_cons (s : Spacing) (level : Nat) {v : Json} (hfloat : v.FloatFree) :
    ∃ c cs, chars s level v = c :: cs ∧ isBlank c = false ∧ c ≠ ']' := by
  match v with
  | .arr [] | .arr (_ :: _) => exact ⟨_, _, by rw [chars], rfl, by decide⟩
  | .obj [] | .obj (_ :: _) => exact ⟨_, _, by rw [chars], rfl, by decide⟩
  | .null => exact ⟨'n', ['u', 'l', 'l'], by rw [chars]; rfl, rfl, by decide⟩
  | .bool true => exact ⟨'t', ['r', 'u', 'e'], by rw [chars]; rfl, rfl, by decide⟩
  | .bool false => exact ⟨'f', ['a', 'l', 's', 'e'], by rw [chars]; rfl, rfl, by decide⟩
  | .str _ => exact ⟨_, _, by rw [chars, scalarChars, quoted]; rfl, rfl, by decide⟩
  | .num (.float _) => exact hfloat.elim
  | .num (.int n) =>
      obtain ⟨c, cs, htext, hc⟩ := exists_text_eq_cons n
      exact ⟨c, cs, by rw [chars, scalarChars, htext], isBlank_of_numeric hc,
        ne_of_numeric hc rfl (by decide)⟩

theorem readLexeme_scalar {v : Json} (hfloat : v.FloatFree) (hv : v.lexeme.scalar? = some v)
    {rest : List Char} (h : Delimited rest) :
    readLexeme (scalarChars v ++ rest) = .ok (v.lexeme, rest) := by
  cases v with
  | arr _ | obj _ => cases hv
  | null => rfl
  | bool b => cases b <;> rfl
  | str t =>
      simp only [scalarChars, quoted_append, readLexeme, skipBlanks_quote, readString_escaped, bind,
        Except.bind, String.ofList_toList, lexeme]
  | num n =>
      cases n with
      | float _ => exact hfloat.elim
      | int n =>
          obtain ⟨c, cs, htext, hc⟩ := exists_text_eq_cons n
          have hread := readNumber_text n h
          rw [scalarChars]
          rw [htext, List.cons_append] at hread ⊢
          rw [readLexeme_numeric hc, hread]
          rfl

section separators

variable {first : Bool} {bs cs rest : List Char} (hbs : ∀ c ∈ bs, isBlank c)

/-- What stands before an element: nothing before the first one, and a comma before any other. -/
def lead (first : Bool) : List Char := if first then [] else [',']

include hbs

theorem nextItem_lead {c : Char} (hblank : isBlank c = false) (hc : c ≠ ']') :
    nextItem first (lead first ++ (bs ++ c :: cs)) = .ok (.item (c :: cs)) := by
  have hskip : skipBlanks (bs ++ c :: cs) = c :: cs := by
    rw [skipBlanks_append hbs, skipBlanks_cons hblank]
  cases first with
  | true => simp only [lead, ite_true, List.nil_append, nextItem, hskip]
  | false =>
      simp [lead, nextItem, skipBlanks_cons (c := ',') rfl, hskip, hc]

theorem nextItem_close : nextItem first (bs ++ ']' :: rest) = .ok (.stop rest) := by
  simp only [nextItem, skipBlanks_append hbs, skipBlanks_cons (c := ']') rfl]

theorem nextKey_lead :
    nextKey first (lead first ++ (bs ++ '"' :: cs)) = .ok (.item cs) := by
  have hskip : skipBlanks (bs ++ '"' :: cs) = '"' :: cs := by
    rw [skipBlanks_append hbs, skipBlanks_cons rfl]
  cases first with
  | true => simp [lead, nextKey, hskip]
  | false =>
      simp [lead, nextKey, skipBlanks_cons (c := ',') rfl, hskip]

theorem nextKey_close : nextKey first (bs ++ '\x7d' :: rest) = .ok (.stop rest) := by
  simp only [nextKey, skipBlanks_append hbs, skipBlanks_cons (c := '\x7d') rfl]

theorem delimited_append {c : Char} (h : Delimited (c :: cs)) : Delimited (bs ++ c :: cs) := by
  cases bs with
  | nil => exact h
  | cons b bs =>
      intro c' hc'
      cases hc'
      have hb : b = ' ' ∨ b = '\t' ∨ b = '\n' ∨ b = '\r' := by
        simpa [isBlank, or_assoc] using hbs b List.mem_cons_self
      rcases hb with rfl | rfl | rfl | rfl <;> decide

end separators

theorem delimited_itemsChars (s : Spacing) (level : Nat) (items : List Json) (rest : List Char) :
    Delimited (itemsChars s level items ++ rest) := by
  cases items with
  | nil =>
      rw [itemsChars, List.append_assoc]
      refine delimited_append (s.blank_before level) fun c hc => ?_
      cases hc
      decide
  | cons v items =>
      intro c hc
      rw [itemsChars] at hc
      cases hc
      decide

theorem delimited_membersChars (s : Spacing) (level : Nat) (members : Members) (rest : List Char) :
    Delimited (membersChars s level members ++ rest) := by
  cases members with
  | nil =>
      rw [membersChars, List.append_assoc]
      refine delimited_append (s.blank_before level) fun c hc => ?_
      cases hc
      decide
  | cons v members =>
      intro c hc
      rw [membersChars] at hc
      cases hc
      decide

theorem readValue_append {bs : List Char} (hbs : ∀ c ∈ bs, isBlank c) (steps room : Nat)
    (cs : List Char) : readValue steps room (bs ++ cs) = readValue steps room cs := by
  have hlexeme : readLexeme (bs ++ cs) = readLexeme cs := by
    rw [readLexeme, readLexeme, skipBlanks_append hbs]
  cases steps with
  | zero => rfl
  | succ k => rw [readValue, readValue, hlexeme]

section elements

variable (first : Bool) {k room : Nat} {v : Json} {rest : List Char}
  (hv : ∀ {rest}, Delimited rest →
    readValue k room (chars s (level + 1) v ++ rest) = .ok (v, rest))

include hv

theorem readItems_written (hfloat : v.FloatFree) {items : List Json}
    (hitems : readItems k room false (itemsChars s level items ++ rest) = .ok (items, rest)) :
    readItems (k + 1) room first (lead first ++ (s.before (level + 1) ++
      (chars s (level + 1) v ++ (itemsChars s level items ++ rest)))) = .ok (v :: items, rest) := by
  have hread := hv (delimited_itemsChars s level items rest)
  obtain ⟨c, cs, hchars, hblank, hclose⟩ := exists_chars_eq_cons s (level + 1) hfloat
  rw [hchars, List.cons_append] at hread ⊢
  exact readItems_succ.mpr (.inr ⟨v, items, _, _, rfl,
    nextItem_lead (s.blank_before _) hblank hclose, hread, hitems⟩)

theorem readMembers_written {key : String} {members : Members}
    (hmembers : readMembers k room false (membersChars s level members ++ rest) =
      .ok (members, rest)) :
    readMembers (k + 1) room first (lead first ++ (s.before (level + 1) ++ (quoted key ++ ':' ::
      (s.afterColon ++ (chars s (level + 1) v ++ (membersChars s level members ++ rest)))))) =
      .ok ((key, v) :: members, rest) := by
  have hread := hv (delimited_membersChars s level members rest)
  rw [← readValue_append s.blank_afterColon] at hread
  rw [quoted_append]
  exact readMembers_succ.mpr (.inr ⟨key, v, members, _, _, _, _, rfl,
    nextKey_lead (s.blank_before _), readKey_quoted key _, rfl, hread, hmembers⟩)

end elements

theorem readValue_list {k room : Nat} {next rest : List Char} {items : List Json}
    (h : readItems k room true next = .ok (items, rest)) :
    readValue (k + 1) (room + 1) ('[' :: next) = .ok (.arr items, rest) :=
  readValue_succ.mpr (.inr (.inl ⟨room, items, next, rfl, rfl, rfl, h⟩))

theorem readValue_object {k room : Nat} {next rest : List Char} {members : Members}
    (h : readMembers k room true next = .ok (members, rest)) :
    readValue (k + 1) (room + 1) ('\x7b' :: next) = .ok (.obj members, rest) :=
  readValue_succ.mpr (.inr (.inr ⟨room, members, next, rfl, rfl, rfl, h⟩))

theorem length_chars_pos (s : Spacing) (level : Nat) {v : Json} (hfloat : v.FloatFree) :
    0 < (chars s level v).length := by
  obtain ⟨c, cs, hchars, _⟩ := exists_chars_eq_cons s level hfloat
  rw [hchars]
  exact Nat.succ_pos _

theorem length_itemsChars_pos (s : Spacing) (level : Nat) (items : List Json) :
    0 < (itemsChars s level items).length := by
  cases items with
  | nil => simp [itemsChars]
  | cons v items => exact Nat.succ_pos _

theorem length_membersChars_pos (s : Spacing) (level : Nat) (members : Members) :
    0 < (membersChars s level members).length := by
  cases members with
  | nil => simp [membersChars]
  | cons member members => exact Nat.succ_pos _

/-- What is written in at most `steps` characters is read back in `steps` steps. -/
structure ReadBack (s : Spacing) (steps : Nat) : Prop where
  value : ∀ {room level v rest}, v.FloatFree → v.depth ≤ room → (chars s level v).length ≤ steps →
    Delimited rest → readValue steps room (chars s level v ++ rest) = .ok (v, rest)
  items : ∀ {room level items rest}, FloatFreeList items → depthList items ≤ room →
    (itemsChars s level items).length ≤ steps →
    readItems steps room false (itemsChars s level items ++ rest) = .ok (items, rest)
  members : ∀ {room level members rest}, FloatFreeMembers members → depthMembers members ≤ room →
    (membersChars s level members).length ≤ steps →
    readMembers steps room false (membersChars s level members ++ rest) = .ok (members, rest)

section step

variable {steps room : Nat} (ih : ∀ k < steps + 1, ReadBack s k)

include ih

theorem readItems_chars {items : List Json} {rest : List Char} (hfloat : FloatFreeList items)
    (hdepth : depthList items ≤ room) (hlength : (itemsChars s level items).length ≤ steps + 1) :
    readItems (steps + 1) room false (itemsChars s level items ++ rest) = .ok (items, rest) := by
  cases items with
  | nil =>
      rw [itemsChars, List.append_assoc]
      exact readItems_succ.mpr (.inl ⟨rfl, nextItem_close (s.blank_before level)⟩)
  | cons v items =>
      have hdepth := Nat.max_le.mp hdepth
      rw [itemsChars] at hlength ⊢
      simp only [List.length_cons, List.length_append] at hlength
      simp only [List.cons_append, List.append_assoc]
      have hback := ih steps (Nat.lt_succ_self steps)
      exact readItems_written false (hback.value hfloat.1 hdepth.1 (by omega)) hfloat.1
        (hback.items hfloat.2 hdepth.2 (by omega))

theorem readMembers_chars {members : Members} {rest : List Char}
    (hfloat : FloatFreeMembers members) (hdepth : depthMembers members ≤ room)
    (hlength : (membersChars s level members).length ≤ steps + 1) :
    readMembers (steps + 1) room false (membersChars s level members ++ rest) =
      .ok (members, rest) := by
  cases members with
  | nil =>
      rw [membersChars, List.append_assoc]
      exact readMembers_succ.mpr (.inl ⟨rfl, nextKey_close (s.blank_before level)⟩)
  | cons member members =>
      obtain ⟨key, v⟩ := member
      have hdepth := Nat.max_le.mp hdepth
      rw [membersChars] at hlength ⊢
      simp only [List.length_cons, List.length_append] at hlength
      simp only [List.cons_append, List.append_assoc]
      have hback := ih steps (Nat.lt_succ_self steps)
      exact readMembers_written false (hback.value hfloat.1 hdepth.1 (by omega))
        (hback.members hfloat.2 hdepth.2 (by omega))

/-- The first element of a container is read two steps after the container begins. -/
theorem readValue_chars {v : Json} {rest : List Char} (hfloat : v.FloatFree)
    (hdepth : v.depth ≤ room) (hlength : (chars s level v).length ≤ steps + 1)
    (hrest : Delimited rest) :
    readValue (steps + 1) room (chars s level v ++ rest) = .ok (v, rest) := by
  match v with
  | .null | .bool _ | .num _ | .str _ =>
      rw [chars]
      exact readValue_succ.mpr (.inl ⟨_, readLexeme_scalar hfloat rfl hrest, rfl⟩)
  | .arr items =>
      obtain ⟨below, rfl⟩ : ∃ below, room = below + 1 := ⟨room - 1, by rw [depth] at hdepth; omega⟩
      cases items with
      | nil =>
          rw [chars] at hlength ⊢
          obtain ⟨k, rfl⟩ : ∃ k, steps = k + 1 := ⟨steps - 1, by simp at hlength; omega⟩
          exact readValue_list (readItems_succ.mpr (.inl ⟨rfl, rfl⟩))
      | cons v items =>
          have hdepth := Nat.max_le.mp (Nat.le_of_succ_le_succ hdepth)
          have hv := length_chars_pos s (level + 1) hfloat.1
          have hitems := length_itemsChars_pos s level items
          rw [chars] at hlength ⊢
          simp only [List.length_cons, List.length_append] at hlength
          simp only [List.cons_append, List.append_assoc]
          obtain ⟨k, rfl⟩ : ∃ k, steps = k + 1 := ⟨steps - 1, by omega⟩
          have hback := ih k (by omega)
          exact readValue_list (readItems_written true
            (hback.value hfloat.1 hdepth.1 (by omega)) hfloat.1
            (hback.items hfloat.2 hdepth.2 (by omega)))
  | .obj members =>
      obtain ⟨below, rfl⟩ : ∃ below, room = below + 1 := ⟨room - 1, by rw [depth] at hdepth; omega⟩
      cases members with
      | nil =>
          rw [chars] at hlength ⊢
          obtain ⟨k, rfl⟩ : ∃ k, steps = k + 1 := ⟨steps - 1, by simp at hlength; omega⟩
          exact readValue_object (readMembers_succ.mpr (.inl ⟨rfl, rfl⟩))
      | cons member members =>
          obtain ⟨key, v⟩ := member
          have hdepth := Nat.max_le.mp (Nat.le_of_succ_le_succ hdepth)
          have hv := length_chars_pos s (level + 1) hfloat.1
          have hmembers := length_membersChars_pos s level members
          rw [chars] at hlength ⊢
          simp only [List.length_cons, List.length_append] at hlength
          simp only [List.cons_append, List.append_assoc]
          obtain ⟨k, rfl⟩ : ∃ k, steps = k + 1 := ⟨steps - 1, by omega⟩
          have hback := ih k (by omega)
          exact readValue_object (readMembers_written true
            (hback.value hfloat.1 hdepth.1 (by omega))
            (hback.members hfloat.2 hdepth.2 (by omega)))

end step

theorem readBack (s : Spacing) (steps : Nat) : ReadBack s steps := by
  induction steps using Nat.strongRecOn with
  | ind steps ih =>
      cases steps with
      | zero =>
          refine ⟨fun {_ level _ _} hfloat _ hlength _ => ?_,
            fun {_ level items _} _ _ hlength => ?_,
            fun {_ level members _} _ _ hlength => ?_⟩
          · exact absurd (length_chars_pos s level hfloat) (by omega)
          · exact absurd (length_itemsChars_pos s level items) (by omega)
          · exact absurd (length_membersChars_pos s level members) (by omega)
      | succ steps => exact ⟨readValue_chars ih, readItems_chars ih, readMembers_chars ih⟩

theorem readRaw_chars (s : Spacing) (level : Nat) {v : Json} (hfloat : v.FloatFree)
    (hdepth : v.depth ≤ nestingLimit) : readRaw (String.ofList (chars s level v)) = .ok v := by
  have hread : readValue (stepsFor (chars s level v)) nestingLimit (chars s level v ++ []) =
      .ok (v, []) :=
    (readBack s _).value hfloat hdepth (by rw [stepsFor]; omega) (fun _ h => nomatch h)
  rw [List.append_nil] at hread
  rw [readRaw, String.toList_ofList]
  simp only [hread, bind, Except.bind]
  rfl

end Spacing

/-- A value on one line is read as that value. -/
theorem readRaw_compact {v : Json} (hfloat : v.FloatFree) (hdepth : v.depth ≤ nestingLimit) :
    readRaw v.compact = .ok v := by
  rw [compact, Spacing.compactChars_eq 0]
  exact Spacing.readRaw_chars _ 0 hfloat hdepth

/-- An indented value is read as that value. -/
theorem readRaw_pretty {v : Json} (hfloat : v.FloatFree) (hdepth : v.depth ≤ nestingLimit) :
    readRaw v.pretty = .ok v := by
  rw [pretty, Spacing.prettyChars_eq]
  exact Spacing.readRaw_chars _ 0 hfloat hdepth

end DocTree.Json
