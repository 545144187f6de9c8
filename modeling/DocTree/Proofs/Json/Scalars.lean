import DocTree.Json.Printer
import DocTree.Json.Lexeme
import DocTree.Proofs.Json.Reader
import Mathlib.Data.List.TakeWhile

/-!
Scalars are read as they are written: the escapes of a string stand for its characters, and the
decimal digits of an integer of 64 bits for its value. A number ends where neither a digit nor a
fraction nor an exponent follows.
-/

namespace DocTree.Json

section strings

theorem hexDigit?_digitChar : ∀ d : Fin 16, hexDigit? (Nat.digitChar d) = some d.val := by
  decide

theorem hexUnit_controlDigits {code : Nat} (h : code < 32) (cs : List Char) :
    hexUnit (controlDigits code ++ cs) = .ok code := by
  have hhigh : hexDigit? (Nat.digitChar (code / 16)) = some (code / 16) :=
    hexDigit?_digitChar ⟨code / 16, by omega⟩
  have hlow : hexDigit? (Nat.digitChar (code % 16)) = some (code % 16) :=
    hexDigit?_digitChar ⟨code % 16, by omega⟩
  have hzero : hexDigit? '0' = some 0 := by decide
  have hcode : ((0 * 16 + 0) * 16 + code / 16) * 16 + code % 16 = code := by omega
  simp only [controlDigits, List.cons_append, List.nil_append, hexUnit, hzero, hhigh, hlow, hcode]

theorem readEscape_control {code : Nat} (h : code < 32) (cs : List Char) :
    readEscape ('u' :: (controlDigits code ++ cs)) = .ok (Char.ofNat code, 5) := by
  have hlow : isLowSurrogate code = false := by simp [isLowSurrogate]; omega
  have hhigh : isHighSurrogate code = false := by simp [isHighSurrogate]; omega
  rw [readEscape, hexUnit_controlDigits h]
  simp [bind, Except.bind, hlow, hhigh]

theorem readString_escape {plain : Char} {size : Nat} {cs : List Char}
    (h : readEscape cs = .ok (plain, size)) :
    readString 0 ('\\' :: cs) =
      readString size cs >>= fun (text, rest) => .ok (plain :: text, rest) := by
  simp only [readString, h]
  rfl

theorem readEscape_simple {c plain : Char} (hc : c ≠ 'u') (h : simpleEscape? c = some plain)
    (cs : List Char) : readEscape (c :: cs) = .ok (plain, 1) := by
  rw [readEscape]
  · rw [h]
  · exact hc

/-- A written character is read as that character. -/
theorem readString_escapeChar (c : Char) (cs : List Char) :
    readString 0 (escapeChar c ++ cs) =
      readString 0 cs >>= fun (text, rest) => .ok (c :: text, rest) := by
  have hsimple (d plain : Char) (hd : d ≠ 'u') (h : simpleEscape? d = some plain) :
      readString 0 ('\\' :: d :: cs) =
        readString 0 cs >>= fun (text, rest) => .ok (plain :: text, rest) :=
    readString_escape (readEscape_simple hd h cs)
  unfold escapeChar
  split_ifs with hquote hescape hback htab hnewline hfeed hreturn hcontrol
  · exact hquote ▸ hsimple '"' '"' (by decide) rfl
  · exact hescape ▸ hsimple '\\' '\\' (by decide) rfl
  · exact hback ▸ hsimple 'b' '\x08' (by decide) rfl
  · exact htab ▸ hsimple 't' '\t' (by decide) rfl
  · exact hnewline ▸ hsimple 'n' '\n' (by decide) rfl
  · exact hfeed ▸ hsimple 'f' '\x0c' (by decide) rfl
  · exact hreturn ▸ hsimple 'r' '\r' (by decide) rfl
  · have hread := readString_escape (readEscape_control hcontrol cs)
    rw [Char.ofNat_toNat] at hread
    exact hread
  · simp only [List.cons_append, List.nil_append, readString, hquote, hescape, hcontrol, ite_false]

theorem readString_escaped (text rest : List Char) :
    readString 0 (text.flatMap escapeChar ++ '"' :: rest) = .ok (text, rest) := by
  induction text with
  | nil => simp [readString]
  | cons c text ih =>
      rw [List.flatMap_cons, List.append_assoc, readString_escapeChar, ih]
      rfl

theorem quoted_append (s : String) (rest : List Char) :
    quoted s ++ rest = '"' :: (s.toList.flatMap escapeChar ++ '"' :: rest) := by
  simp [quoted]

theorem readKey_quoted (key : String) (rest : List Char) :
    readKey (key.toList.flatMap escapeChar ++ '"' :: rest) = .ok (key, rest) := by
  rw [readKey, readString_escaped]
  exact congrArg (fun s => Except.ok (s, rest)) String.ofList_toList

end strings

section integers

/-- Nothing follows that would belong to a number. -/
def Delimited (rest : List Char) : Prop :=
  ∀ c ∈ rest.head?, isDigit c = false ∧ c ≠ '.' ∧ c ≠ 'e' ∧ c ≠ 'E'

theorem isDigit_of_mem_toDigits {n : Nat} {c : Char} (h : c ∈ Nat.toDigits 10 n) : isDigit c := by
  have hc := Nat.isDigit_of_mem_toDigits (by decide) (by decide) h
  simpa [isDigit, Char.isDigit, Char.le_def, UInt32.le_iff_toNat_le] using hc

/-- The digits of a number as they are read. -/
def digitValues (n : Nat) : List Nat := (Nat.toDigits 10 n).map fun c => c.toNat - 48

theorem readDigits_toDigits (n : Nat) {rest : List Char} (h : Delimited rest) :
    readDigits (Nat.toDigits 10 n ++ rest) = (digitValues n, rest) := by
  have hdigits : ∀ c ∈ Nat.toDigits 10 n, isDigit c := fun _ => isDigit_of_mem_toDigits
  have htake : rest.takeWhile isDigit = [] := by
    cases rest with
    | nil => rfl
    | cons c rest => exact List.takeWhile_cons_of_neg (by simp [(h c rfl).1])
  have hdrop : rest.dropWhile isDigit = rest := by
    cases rest with
    | nil => rfl
    | cons c rest => exact List.dropWhile_cons_of_neg (by simp [(h c rfl).1])
  rw [readDigits, List.takeWhile_append_of_pos hdigits, List.dropWhile_append_of_pos hdigits, htake,
    hdrop, List.append_nil, digitValues]

theorem digitValues_of_lt {n : Nat} (h : n < 10) : digitValues n = [n] := by
  rw [digitValues, Nat.toDigits_of_lt_base h, List.map_singleton,
    Nat.toNat_digitChar_sub_48_of_lt_ten h]

theorem digitValues_of_ge {n : Nat} (h : 10 ≤ n) :
    digitValues n = digitValues (n / 10) ++ [n % 10] := by
  have hlast := Nat.toNat_digitChar_sub_48_of_lt_ten (Nat.mod_lt n (by decide : 10 > 0))
  rw [digitValues, Nat.toDigits_of_base_le (by decide) h, List.map_append, List.map_singleton,
    hlast, digitValues]

theorem digitValues_ne_nil (n : Nat) : digitValues n ≠ [] :=
  mt List.map_eq_nil_iff.mp Nat.toDigits_ne_nil

/-- No number but zero is written with a zero first. -/
theorem head_digitValues_ne_zero {n : Nat} (h : 0 < n) (ds : List Nat) :
    digitValues n ≠ 0 :: ds := by
  induction n using Nat.strongRecOn generalizing ds with
  | ind n ih =>
      by_cases hn : n < 10
      · rw [digitValues_of_lt hn]
        intro heq
        have := (List.cons.inj heq).1
        omega
      · rw [digitValues_of_ge (by omega)]
        intro heq
        cases hhigh : digitValues (n / 10) with
        | nil => exact digitValues_ne_nil _ hhigh
        | cons d more =>
            rw [hhigh, List.cons_append] at heq
            exact ih (n / 10) (by omega) (by omega) more (by rw [hhigh, (List.cons.inj heq).1])

theorem readWhole_toDigits (atEnd : Defect) (n : Nat) {rest : List Char} (h : Delimited rest) :
    readWhole atEnd (Nat.toDigits 10 n ++ rest) = .ok (digitValues n, rest) := by
  have hsome : readSomeDigits atEnd (Nat.toDigits 10 n ++ rest) = .ok (digitValues n, rest) := by
    rw [readSomeDigits, readDigits_toDigits n h]
    split
    · next heq => exact absurd (Prod.mk.inj heq).1 (digitValues_ne_nil n)
    · next heq => exact absurd (Prod.mk.inj heq).1 (digitValues_ne_nil n)
    · rfl
  rw [readWhole, hsome]
  simp only [bind, Except.bind]
  split
  · next d more _ heq =>
      have hdigits := (Prod.mk.inj heq).1
      by_cases hn : n < 10
      · rw [digitValues_of_lt hn] at hdigits
        cases hdigits
      · exact absurd hdigits (head_digitValues_ne_zero (by omega) _)
  · rfl

/-- The value of decimal digits that are appended to a number. -/
def decimal (n : Nat) (digits : List Nat) : Nat := digits.foldl (fun n d => n * 10 + d) n

theorem le_decimal (n : Nat) (digits : List Nat) : n ≤ decimal n digits := by
  induction digits generalizing n with
  | nil => exact Nat.le_refl n
  | cons d digits ih => exact Nat.le_trans (by omega) (ih (n * 10 + d))

theorem decimal_digitValues (n : Nat) : decimal 0 (digitValues n) = n := by
  induction n using Nat.strongRecOn with
  | ind n ih =>
      by_cases hn : n < 10
      · rw [digitValues_of_lt hn]
        simp [decimal]
      · have hhigh := ih (n / 10) (by omega)
        rw [decimal] at hhigh
        rw [digitValues_of_ge (by omega), decimal, List.foldl_append, hhigh]
        simp only [List.foldl_cons, List.foldl_nil]
        omega

theorem absorb_of_lt {n : Nat} {digits : List Nat}
    (h : decimal n digits < 18446744073709551616) : absorb n digits = (decimal n digits, []) := by
  induction digits generalizing n with
  | nil => rfl
  | cons d digits ih =>
      have hlt : n * 10 + d < 18446744073709551616 :=
        Nat.lt_of_le_of_lt (le_decimal (n * 10 + d) digits) h
      rw [absorb, if_pos hlt]
      exact ih h

theorem Numeral.value?_integer (n : Integer) :
    Numeral.value? ⟨n.val < 0, digitValues n.val.natAbs, [], none⟩ = some (.int n) := by
  have hlower := n.lower
  have hupper := n.upper
  have habsorb : absorb 0 (digitValues n.val.natAbs) = (n.val.natAbs, []) := by
    have hdecimal := decimal_digitValues n.val.natAbs
    rw [absorb_of_lt (by omega), hdecimal]
  have hexact : (if n.val < 0 then -(n.val.natAbs : Int) else n.val.natAbs) = n.val := by
    split <;> omega
  have hof : Integer.ofInt? n.val = some n := dif_pos ⟨hlower, hupper⟩
  have hzero : ¬(n.val < 0 ∧ n.val.natAbs = 0) := by omega
  simp only [Numeral.value?, habsorb, List.isEmpty_nil, Option.isNone_none, Bool.and_self, ite_true,
    decide_eq_true_eq, hexact, hof, Bool.and_eq_true, hzero, ite_false]

theorem text_integer (n : Integer) :
    (Number.int n).text.toList =
      (if n.val < 0 then ['-'] else []) ++ Nat.toDigits 10 n.val.natAbs := by
  rw [Number.text, Int.toString_eq_repr, Int.repr_eq_if]
  by_cases hn : n.val < 0
  · have habs : (-n.val).toNat = n.val.natAbs := by omega
    rw [if_neg (by omega), if_pos hn, habs, String.toList_append, Nat.toList_repr]
    rfl
  · have habs : n.val.toNat = n.val.natAbs := by omega
    rw [if_pos (by omega), if_neg hn, habs, Nat.toList_repr, List.nil_append]

theorem readNumeral_toDigits (atEnd : Defect) (negative : Bool) (n : Nat) {rest : List Char}
    (h : Delimited rest) :
    readNumeral atEnd ((if negative then ['-'] else []) ++ (Nat.toDigits 10 n ++ rest)) =
      .ok (⟨negative, digitValues n, [], none⟩, rest) := by
  have hfraction : readFraction atEnd rest = .ok ([], rest) := by
    unfold readFraction
    split
    · exact absurd rfl (h '.' rfl).2.1
    · rfl
  have hexponent : readExponent atEnd rest = .ok (none, rest) := by
    unfold readExponent
    split
    · exact absurd rfl (h 'e' rfl).2.2.1
    · exact absurd rfl (h 'E' rfl).2.2.2
    · rfl
  have hsign : ∀ cs, Nat.toDigits 10 n ++ rest ≠ '-' :: cs := by
    intro cs heq
    cases hdigits : Nat.toDigits 10 n with
    | nil => exact Nat.toDigits_ne_nil hdigits
    | cons c more =>
        rw [hdigits] at heq
        have hc : isDigit c := isDigit_of_mem_toDigits (hdigits ▸ List.mem_cons_self)
        rw [(List.cons.inj heq).1] at hc
        exact absurd hc (by decide)
  have hwhole := readWhole_toDigits atEnd n h
  cases negative with
  | true =>
      simp only [readNumeral, ite_true, List.cons_append, List.nil_append, hwhole, hfraction,
        hexponent, bind, Except.bind]
  | false =>
      simp only [readNumeral, Bool.false_eq_true, ite_false, List.nil_append, hwhole,
        hfraction, hexponent, bind, Except.bind]

theorem readNumber_text (n : Integer) {rest : List Char} (h : Delimited rest) :
    readNumber ((Number.int n).text.toList ++ rest) = .ok (.int n, rest) := by
  have hnumeral := readNumeral_toDigits .endInValue (n.val < 0) n.val.natAbs h
  rw [readNumber, text_integer, List.append_assoc]
  simp only [decide_eq_true_eq] at hnumeral
  rw [hnumeral]
  simp only [bind, Except.bind, Numeral.value?_integer]

end integers

end DocTree.Json
