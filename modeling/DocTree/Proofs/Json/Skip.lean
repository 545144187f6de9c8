import DocTree.Json.Skip
import DocTree.Proofs.Json.Reader
import Mathlib.Data.List.DropRight

/-!
Passing over a value agrees with reading it: whatever can be read can be passed over, and the same
text remains. The converse does not hold, since passing over asks for less.
-/

namespace DocTree.Json

variable {cs rest : List Char}

theorem skipBlanks_skipBlanks (cs : List Char) : skipBlanks (skipBlanks cs) = skipBlanks cs :=
  List.dropWhile_idempotent isBlank cs

section strings

theorem skipString_eq_drop (taken : Nat) (cs : List Char) :
    skipString taken cs = skipString 0 (cs.drop taken) := by
  induction cs generalizing taken with
  | nil => simp [skipString]
  | cons c cs ih =>
      cases taken with
      | zero => rfl
      | succ more => rw [skipString, ih, List.drop_succ_cons]

theorem skipString_escape {size : Nat} (h : skipEscape cs = .ok size) :
    skipString 0 ('\\' :: cs) = skipString size cs := by
  simp only [skipString, h]
  rfl

/-- An escape is passed over as it is read, but a pair of escapes is passed over one by one. -/
theorem skipEscape_of_readEscape {plain : Char} {size : Nat}
    (h : readEscape cs = .ok (plain, size)) :
    skipEscape cs = .ok size ∨
      size = 11 ∧ skipEscape cs = .ok 5 ∧
        ∃ more, cs.drop 5 = '\\' :: 'u' :: more ∧ skipEscape ('u' :: more) = .ok 5 := by
  unfold readEscape at h
  split at h
  · cases h
  · next rest =>
      obtain ⟨unit, hunit, h⟩ := bind_eq_ok_iff.mp h
      have hskip : skipEscape ('u' :: rest) = .ok 5 := bind_eq_ok_iff.mpr ⟨unit, hunit, rfl⟩
      split at h
      · cases h
      · split at h
        · cases h
          exact .inl hskip
        · split at h
          · cases h
          · cases h
          · next more hdrop =>
              obtain ⟨low, hlow, h⟩ := bind_eq_ok_iff.mp h
              split at h
              · simp only [Except.ok.injEq, Prod.mk.injEq] at h
                exact .inr ⟨h.2.symm, hskip, more, hdrop, bind_eq_ok_iff.mpr ⟨low, hlow, rfl⟩⟩
              · cases h
          · cases h
  · next c _ hc =>
      split at h
      · next plain' hplain =>
          cases h
          refine .inl ?_
          rw [skipEscape]
          · simp [hplain]
          · exact hc
      · cases h

theorem skipString_of_readString {taken : Nat} {text : List Char}
    (h : readString taken cs = .ok (text, rest)) : skipString taken cs = .ok rest := by
  induction cs generalizing taken text with
  | nil => cases h
  | cons c cs ih =>
      cases taken with
      | succ more => exact ih h
      | zero =>
          by_cases hquote : c = '"'
          · simp only [readString, hquote, ite_true] at h
            cases h
            simp [skipString, hquote]
          · by_cases hescape : c = '\\'
            · subst hescape
              simp only [readString, hquote, ite_true, ite_false] at h
              obtain ⟨⟨plain, size⟩, hread, h⟩ := bind_eq_ok_iff.mp h
              obtain ⟨⟨text', _⟩, htext, h⟩ := bind_eq_ok_iff.mp h
              cases h
              have hskip := ih htext
              rcases skipEscape_of_readEscape hread with h | ⟨rfl, h, more, hdrop, hmore⟩
              · rwa [skipString_escape h]
              · -- the second escape of the pair begins where the first one ends
                have hrest : cs.drop 11 = ('u' :: more).drop 5 := by
                  have := congrArg (List.drop 6) hdrop
                  rwa [List.drop_drop] at this
                rw [skipString_escape h, skipString_eq_drop, hdrop, skipString_escape hmore,
                  skipString_eq_drop, ← hrest, ← skipString_eq_drop, hskip]
            · by_cases hcontrol : c.toNat < 32
              · simp only [readString, hquote, hescape, hcontrol, ite_true, ite_false] at h
                cases h
              · simp only [readString, hquote, hescape, hcontrol, ite_false] at h
                obtain ⟨⟨text', _⟩, htext, h⟩ := bind_eq_ok_iff.mp h
                cases h
                simpa only [skipString, hquote, hescape, hcontrol, ite_false] using ih htext

end strings

section numbers

variable {atEnd : Defect}

/-- Where a number can be read, the defect that its end would have does not matter. -/
theorem readSomeDigits_atEnd (other : Defect) {r : List Nat × List Char}
    (h : readSomeDigits atEnd cs = .ok r) : readSomeDigits other cs = .ok r := by
  unfold readSomeDigits at h ⊢
  split at h
  · cases h
  · cases h
  · exact h

theorem readWhole_atEnd (other : Defect) {r : List Nat × List Char}
    (h : readWhole atEnd cs = .ok r) : readWhole other cs = .ok r := by
  obtain ⟨found, hfound, h⟩ := bind_eq_ok_iff.mp h
  exact bind_eq_ok_iff.mpr ⟨found, readSomeDigits_atEnd other hfound, h⟩

theorem readFraction_atEnd (other : Defect) {r : List Nat × List Char}
    (h : readFraction atEnd cs = .ok r) : readFraction other cs = .ok r := by
  unfold readFraction at h ⊢
  split at h
  · exact readSomeDigits_atEnd other h
  · exact h

theorem readExponent_atEnd (other : Defect) {r : Option Int × List Char}
    (h : readExponent atEnd cs = .ok r) : readExponent other cs = .ok r := by
  unfold readExponent at h ⊢
  split at h
  · split at h
    all_goals
      obtain ⟨found, hfound, h⟩ := bind_eq_ok_iff.mp h
      exact bind_eq_ok_iff.mpr ⟨found, readSomeDigits_atEnd other hfound, h⟩
  · split at h
    all_goals
      obtain ⟨found, hfound, h⟩ := bind_eq_ok_iff.mp h
      exact bind_eq_ok_iff.mpr ⟨found, readSomeDigits_atEnd other hfound, h⟩
  · exact h

theorem readNumeral_atEnd (other : Defect) {r : Numeral × List Char}
    (h : readNumeral atEnd cs = .ok r) : readNumeral other cs = .ok r := by
  obtain ⟨⟨whole, afterWhole⟩, hwhole, h⟩ := bind_eq_ok_iff.mp h
  obtain ⟨⟨fraction, afterFraction⟩, hfraction, h⟩ := bind_eq_ok_iff.mp h
  obtain ⟨⟨exponent, afterExponent⟩, hexponent, h⟩ := bind_eq_ok_iff.mp h
  refine bind_eq_ok_iff.mpr ⟨_, readWhole_atEnd other hwhole, ?_⟩
  refine bind_eq_ok_iff.mpr ⟨_, readFraction_atEnd other hfraction, ?_⟩
  exact bind_eq_ok_iff.mpr ⟨_, readExponent_atEnd other hexponent, h⟩

end numbers

/-- The bracket that opens a container. -/
def Lexeme.bracket? : Lexeme → Option Char
  | .openList => some '['
  | .openObject => some '\x7b'
  | .null | .bool _ | .num _ | .str _ => none

theorem skipBlanks_of_bracket {lexeme : Lexeme} {c : Char}
    (h : readLexeme cs = .ok (lexeme, rest)) (hc : lexeme.bracket? = some c) :
    skipBlanks cs = c :: rest := by
  unfold readLexeme at h
  split at h
  case h_1 => cases h
  case h_6 hblanks | h_7 hblanks =>
    cases h
    cases hc
    exact hblanks
  case h_8 =>
    split at h
    · obtain ⟨_, _, h⟩ := bind_eq_ok_iff.mp h
      cases h
      cases hc
    · cases h
  all_goals
    obtain ⟨_, _, h⟩ := bind_eq_ok_iff.mp h
    cases h
    cases hc

theorem skipValue_of_scalar {k : Nat} {lexeme : Lexeme} {v : Json}
    (h : readLexeme cs = .ok (lexeme, rest)) (hv : lexeme.scalar? = some v) :
    skipValue (k + 1) cs = .ok rest := by
  unfold readLexeme at h
  split at h
  case h_1 => cases h
  case h_2 hblanks | h_3 hblanks | h_4 hblanks =>
    obtain ⟨_, hword, h⟩ := bind_eq_ok_iff.mp h
    cases h
    rw [skipValue, hblanks]
    exact hword
  case h_5 hblanks =>
    obtain ⟨⟨text, _⟩, htext, h⟩ := bind_eq_ok_iff.mp h
    cases h
    rw [skipValue, hblanks]
    exact skipString_of_readString htext
  case h_6 | h_7 =>
    cases h
    cases hv
  case h_8 c more _ _ _ _ _ _ hblanks =>
    split at h
    · next hdigit =>
        obtain ⟨⟨n, _⟩, hnumber, h⟩ := bind_eq_ok_iff.mp h
        obtain ⟨⟨numeral, after⟩, hnumeral, hnumber⟩ := bind_eq_ok_iff.mp hnumber
        cases h
        have hrest : after = rest := by
          simp only at hnumber
          split at hnumber
          · cases hnumber
            rfl
          · cases hnumber
        have hskip := readNumeral_atEnd .badNumber hnumeral
        rw [skipValue, hblanks]
        simp only [hdigit, ite_true, hskip, hrest]
        rfl
    · cases h

theorem skipValue_skipBlanks (k : Nat) (cs : List Char) :
    skipValue k (skipBlanks cs) = skipValue k cs := by
  cases k with
  | zero => rfl
  | succ k => rw [skipValue, skipValue, skipBlanks_skipBlanks]

theorem skipItems_skipBlanks (k : Nat) (cs : List Char) :
    skipItems k (skipBlanks cs) = skipItems k cs := by
  cases k with
  | zero => rfl
  | succ k => rw [skipItems, skipItems, skipValue_skipBlanks]

theorem skipBlanks_quote (cs : List Char) : skipBlanks ('"' :: cs) = '"' :: cs := rfl

theorem skipMembers_skipBlanks (k : Nat) (cs : List Char) :
    skipMembers k (skipBlanks cs) = skipMembers k cs := by
  cases k with
  | zero => rfl
  | succ k => rw [skipMembers, skipMembers, skipBlanks_skipBlanks]

theorem nextItem_stop {first : Bool} (h : nextItem first cs = .ok (.stop rest)) :
    skipBlanks cs = ']' :: rest := by
  unfold nextItem at h
  split at h
  · cases h
  · next hblanks =>
      cases h
      exact hblanks
  · split at h
    · cases h
    · split at h
      · split at h <;> cases h
      · cases h

/-- The first item begins at once, and every other after a comma. -/
theorem nextItem_item {first : Bool} (h : nextItem first cs = .ok (.item rest)) :
    (∀ more, rest ≠ ']' :: more) ∧ rest ≠ [] ∧
      if first then skipBlanks cs = rest
      else ∃ more, skipBlanks cs = ',' :: more ∧ skipBlanks more = rest := by
  unfold nextItem at h
  split at h
  · cases h
  · cases h
  · next c more hc hblanks =>
      split at h
      · next hfirst =>
          cases h
          simp_all
      · split at h
        · next hfirst hcomma =>
            split at h
            · cases h
            · cases h
            · next next hnil hclose hnext =>
                cases h
                simp_all
        · cases h

theorem nextKey_stop {first : Bool} (h : nextKey first cs = .ok (.stop rest)) :
    skipBlanks cs = '\x7d' :: rest := by
  unfold nextKey at h
  split at h
  · cases h
  · next hblanks =>
      cases h
      exact hblanks
  · split at h
    · split at h <;> cases h
    · split at h
      · split at h <;> cases h
      · cases h

theorem nextKey_item {first : Bool} (h : nextKey first cs = .ok (.item rest)) :
    if first then skipBlanks cs = '"' :: rest
    else ∃ more, skipBlanks cs = ',' :: more ∧ skipBlanks more = '"' :: rest := by
  unfold nextKey at h
  split at h
  · cases h
  · cases h
  · split at h
    · split at h
      · cases h
        simp_all
      · cases h
    · split at h
      · split at h
        · cases h
        · cases h
          simp_all
        · cases h
        · cases h
      · cases h

theorem skipString_of_readKey {key : String} (h : readKey cs = .ok (key, rest)) :
    skipString 0 cs = .ok rest := by
  obtain ⟨⟨text, _⟩, htext, h⟩ := bind_eq_ok_iff.mp h
  cases h
  exact skipString_of_readString htext

theorem skipValue_list {k : Nat} {next item : List Char} (h : skipBlanks cs = '[' :: next)
    (hitem : nextItem true next = .ok (.item item)) : skipValue (k + 1) cs = skipItems k item := by
  obtain ⟨hclose, hnil, hblanks⟩ := nextItem_item hitem
  rw [skipValue, h]
  simp only [show skipBlanks next = item from hblanks]

theorem skipValue_object {k : Nat} {next key : List Char} (h : skipBlanks cs = '\x7b' :: next)
    (hkey : nextKey true next = .ok (.item key)) :
    skipValue (k + 1) cs = skipMembers k ('"' :: key) := by
  rw [skipValue, h]
  simp only [show skipBlanks next = '"' :: key from nextKey_item hkey]
  rfl

/-- What can be read in `k` steps can be passed over in as many. Passing over items begins with an
item, where reading them begins with the search for one, so the items behind a value are taken
together with it. -/
structure Skips (k : Nat) : Prop where
  value : ∀ {room cs v rest}, readValue k room cs = .ok (v, rest) → skipValue k cs = .ok rest
  items : ∀ {j room cs v after vs rest}, k = j + 1 → readValue j room cs = .ok (v, after) →
    readItems j room false after = .ok (vs, rest) → skipItems k cs = .ok rest
  members : ∀ {j room cs key afterKey colon v after ms rest}, k = j + 1 →
    readKey cs = .ok (key, afterKey) → readColon afterKey = .ok colon →
    readValue j room colon = .ok (v, after) → readMembers j room false after = .ok (ms, rest) →
    skipMembers k ('"' :: cs) = .ok rest

section step

variable {k room : Nat} (hskips : Skips k)

include hskips

theorem skipList_of_readItems {next : List Char} {items : List Json}
    (hblanks : skipBlanks cs = '[' :: next) (h : readItems k room true next = .ok (items, rest)) :
    skipValue (k + 1) cs = .ok rest := by
  cases k with
  | zero => cases h
  | succ j =>
      obtain ⟨rfl, hnext⟩ | ⟨v, more, item, after, rfl, hnext, hv, hmore⟩ := readItems_succ.mp h
      · simp only [skipValue, hblanks, nextItem_stop hnext]
      · rw [skipValue_list hblanks hnext]
        exact hskips.items rfl hv hmore

theorem skipObject_of_readMembers {next : List Char} {members : Members}
    (hblanks : skipBlanks cs = '\x7b' :: next)
    (h : readMembers k room true next = .ok (members, rest)) :
    skipValue (k + 1) cs = .ok rest := by
  cases k with
  | zero => cases h
  | succ j =>
      obtain ⟨rfl, hnext⟩ | ⟨key, v, more, next, afterKey, colon, after, rfl, hnext, hkey, hcolon,
        hv, hmore⟩ := readMembers_succ.mp h
      · simp only [skipValue, hblanks, nextKey_stop hnext]
      · rw [skipValue_object hblanks hnext]
        exact hskips.members rfl hkey hcolon hv hmore

theorem skipValue_of_readValue_succ {v : Json} (h : readValue (k + 1) room cs = .ok (v, rest)) :
    skipValue (k + 1) cs = .ok rest := by
  obtain ⟨lexeme, hl, hv⟩ | ⟨r, items, next, rfl, rfl, hl, h⟩ |
    ⟨r, members, next, rfl, rfl, hl, h⟩ := readValue_succ.mp h
  · exact skipValue_of_scalar hl hv
  · exact skipList_of_readItems hskips (skipBlanks_of_bracket hl rfl) h
  · exact skipObject_of_readMembers hskips (skipBlanks_of_bracket hl rfl) h

theorem skipItems_of_readItems {v : Json} {after : List Char} {vs : List Json}
    (hv : readValue k room cs = .ok (v, after))
    (hvs : readItems k room false after = .ok (vs, rest)) : skipItems (k + 1) cs = .ok rest := by
  rw [skipItems, hskips.value hv]
  cases k with
  | zero => cases hvs
  | succ j =>
      obtain ⟨rfl, hnext⟩ | ⟨v, more, item, after, rfl, hnext, hv, hmore⟩ := readItems_succ.mp hvs
      · simp only [nextItem_stop hnext, bind, Except.bind]
      · obtain ⟨_, _, next, hcomma, hitem⟩ := nextItem_item hnext
        have hskip := hskips.items rfl hv hmore
        rw [← hitem, skipItems_skipBlanks] at hskip
        simp only [hcomma, bind, Except.bind, hskip]

theorem skipMembers_of_readMembers {key : String} {afterKey colon after : List Char} {v : Json}
    {ms : Members} (hkey : readKey cs = .ok (key, afterKey))
    (hcolon : readColon afterKey = .ok colon) (hv : readValue k room colon = .ok (v, after))
    (hms : readMembers k room false after = .ok (ms, rest)) :
    skipMembers (k + 1) ('"' :: cs) = .ok rest := by
  simp only [skipMembers, skipBlanks_quote, skipString_of_readKey hkey, hcolon, hskips.value hv,
    bind, Except.bind]
  cases k with
  | zero => cases hms
  | succ j =>
      obtain ⟨rfl, hnext⟩ | ⟨key, v, more, item, afterKey, colon, after, rfl, hnext, hkey, hcolon,
        hv, hmore⟩ := readMembers_succ.mp hms
      · simp only [nextKey_stop hnext]
      · obtain ⟨next, hcomma, hitem⟩ := nextKey_item hnext
        have hskip := hskips.members rfl hkey hcolon hv hmore
        rw [← hitem, skipMembers_skipBlanks] at hskip
        simp only [hcomma, hskip]

end step

theorem skips (k : Nat) : Skips k := by
  induction k with
  | zero =>
      refine ⟨fun h => ?_, fun h => ?_, fun h => ?_⟩
      all_goals cases h
  | succ k ih =>
      refine ⟨skipValue_of_readValue_succ ih, fun hj hv hvs => ?_, fun hj hkey hcolon hv hms => ?_⟩
      · cases hj
        exact skipItems_of_readItems ih hv hvs
      · cases hj
        exact skipMembers_of_readMembers ih hkey hcolon hv hms

/-- Whatever can be read can be passed over. -/
theorem skipValue_of_readValue {k steps room : Nat} {v : Json} (hk : k ≤ steps)
    (h : readValue k room cs = .ok (v, rest)) : skipValue steps cs = .ok rest :=
  (skips steps).value (readValue_mono hk h)

end DocTree.Json
