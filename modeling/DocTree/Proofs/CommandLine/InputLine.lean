import DocTree.Proofs.CommandLine.Implied

/-!
Lines that imply a command. A line implies the command to convert exactly when it is the name of a
program, global switches and an input, with anything behind these, and it can be taken apart so in
one way only. The line with the command in it implies none. Looking for the input by the places of
words, one or two at a time, comes to the same: the search ends, and no line is cut behind its end,
although the place that is reached may lie there.
-/

namespace DocTree.CommandLine

/-- A line that has an input where a command is due. -/
structure InputLine where
  program : String
  globals : List String
  input : String
  rest : List String
  leading : Leading globals
  plain : IsPlain input
  unnamed : input ∉ ["convert", "data", "help"]

namespace InputLine

def words (l : InputLine) : List String := l.program :: (l.globals ++ l.input :: l.rest)

/-- The line with the command to convert before its input. -/
def converted (l : InputLine) : List String :=
  l.program :: (l.globals ++ "convert" :: l.input :: l.rest)

end InputLine

theorem Leading.append {globals more : List String} (h : Leading globals) (hmore : Leading more) :
    Leading (globals ++ more) := by
  induction h with
  | nil => exact hmore
  | flag hword _ ih => exact .flag hword ih
  | attached value _ ih => exact .attached value ih
  | detached value _ ih => exact .detached value ih

/-- What is found behind the global switches at the front of words. -/
inductive Scanned : List String → Prop where
  | word {globals : List String} {word : String} (rest : List String) (h : Leading globals)
      (hword : ¬ OpensSwitch word) : Scanned (globals ++ word :: rest)
  | finished {globals : List String} (h : Leading globals) : Scanned globals
  /-- The words end where the value of the last switch is due. -/
  | valueMissing {globals : List String} (h : Leading globals) : Scanned (globals ++ ["--config"])

theorem Scanned.append {globals words : List String} (h : Leading globals)
    (hwords : Scanned words) : Scanned (globals ++ words) := by
  cases hwords with
  | word rest hmore hword =>
      rw [← List.append_assoc]
      exact .word rest (h.append hmore) hword
  | finished hmore => exact .finished (h.append hmore)
  | valueMissing hmore =>
      rw [← List.append_assoc]
      exact .valueMissing (h.append hmore)

theorem scanned : (words : List String) → Scanned words
  | [] => .finished .nil
  | word :: rest => by
      by_cases hopens : OpensSwitch word
      · obtain hword | hword | ⟨value, hword⟩ := hopens
        · exact (scanned rest).append (.flag hword .nil)
        · subst hword
          cases rest with
          | nil => exact .valueMissing .nil
          | cons value rest => exact (scanned rest).append (.detached value .nil)
        · subst hword
          exact (scanned rest).append (.attached value .nil)
      · exact .word rest .nil hopens

theorem implied?_finished (program : String) {globals : List String} (h : Leading globals) :
    implied? (program :: globals) = none := by
  have hsplit := splitGlobals_append h []
  rw [List.append_nil] at hsplit
  rw [implied?_cons, hsplit]
  rfl

theorem implied?_valueMissing (program : String) {globals : List String} (h : Leading globals) :
    implied? (program :: (globals ++ ["--config"])) = none := by
  rw [implied?_cons, splitGlobals_append h]
  rfl

namespace InputLine

theorem isInput (l : InputLine) : isInput l.input = true := isInput_iff.mpr ⟨l.plain, l.unnamed⟩

theorem not_opensSwitch (l : InputLine) : ¬ OpensSwitch l.input :=
  fun hopens => hopens.not_isPlain l.plain

theorem implied?_words (l : InputLine) : implied? l.words = some l.converted := by
  rw [words, implied?_leading l.program l.leading l.not_opensSwitch, if_pos l.isInput]
  rfl

/-- The command stands where an input was, and is none. -/
theorem implied?_converted (l : InputLine) : implied? l.converted = none := by
  have hplain : IsPlain "convert" := .inr (by simp)
  have hinput : ¬ CommandLine.isInput "convert" = true := by simp [isInput_iff]
  rw [converted, implied?_leading l.program l.leading fun hopens => hopens.not_isPlain hplain,
    if_neg hinput]

/-- A line is taken apart in one way only. -/
theorem words_injective : Function.Injective words := by
  intro l m h
  have hsplit (k : InputLine) :
      splitGlobals (k.globals ++ k.input :: k.rest) = (k.globals, k.input :: k.rest) := by
    rw [splitGlobals_append k.leading,
      splitGlobals_of_zero (globalWidth_eq_zero_iff.mpr k.not_opensSwitch), List.append_nil]
  obtain ⟨hprogram, htail⟩ := List.cons.inj h
  have hparts := (hsplit l).symm.trans ((congrArg splitGlobals htail).trans (hsplit m))
  obtain ⟨hglobals, hrest⟩ := Prod.mk.inj hparts
  obtain ⟨hinput, hrest⟩ := List.cons.inj hrest
  cases l
  cases m
  simp_all

end InputLine

theorem exists_inputLine_of_implied? {argv converted : List String}
    (h : implied? argv = some converted) :
    ∃ l : InputLine, l.words = argv ∧ l.converted = converted := by
  cases argv with
  | nil => cases h
  | cons program words =>
      cases scanned words with
      | finished hleading =>
          rw [implied?_finished program hleading] at h
          cases h
      | valueMissing hleading =>
          rw [implied?_valueMissing program hleading] at h
          cases h
      | @word globals input rest hleading hopens =>
          rw [implied?_leading program hleading hopens] at h
          split at h
          · next hinput =>
              obtain ⟨hplain, hname⟩ := isInput_iff.mp hinput
              exact ⟨⟨program, globals, input, rest, hleading, hplain, hname⟩, rfl,
                Option.some.inj h⟩
          · cases h

section places

/-- The first place, from a given one on, at which no global switch begins. The value of a switch is
passed over also where it is missing. -/
def pastGlobals (argv : List String) (place : Nat) : Nat :=
  if h : place < argv.length then
    if globalWidth argv[place] = 0 then place
    else pastGlobals argv (place + globalWidth argv[place])
  else place
termination_by argv.length - place

/-- A place that lies behind the end of a line. -/
structure OutOfRange where
  place : Nat

/-- The words before a place and those from there on. -/
def cutAt (argv : List String) (place : Nat) : Except OutOfRange (List String × List String) :=
  if place ≤ argv.length then .ok (argv.splitAt place) else .error ⟨place⟩

/-- The line that a line implies, looked for by the places of its words. -/
def impliedByPlace (argv : List String) : Except OutOfRange (Option (List String)) :=
  let place := pastGlobals argv 1
  match argv[place]? with
  | none => .ok none
  | some word =>
    if isInput word then do
      let (front, back) ← cutAt argv place
      .ok (some (front ++ Command.convert.name :: back))
    else .ok none

theorem pastGlobals_of_end {argv : List String} {place : Nat} (h : argv.length ≤ place) :
    pastGlobals argv place = place := by
  rw [pastGlobals, dif_neg (Nat.not_lt.mpr h)]

section passing

variable (front : List String) {word : String}

theorem pastGlobals_of_word (h : ¬ OpensSwitch word) (rest : List String) :
    pastGlobals (front ++ word :: rest) front.length = front.length := by
  rw [pastGlobals, dif_pos (by simp)]
  simp [globalWidth_eq_zero_iff.mpr h]

theorem pastGlobals_of_opens (h : globalWidth word ≠ 0) (rest : List String) :
    pastGlobals (front ++ word :: rest) front.length =
      pastGlobals (front ++ word :: rest) (front.length + globalWidth word) := by
  rw [pastGlobals, dif_pos (by simp)]
  simp [h]

/-- A switch goes over to the words in front, with its value. -/
theorem pastGlobals_switch (taken : List String) (h : globalWidth word = (word :: taken).length)
    (rest : List String) :
    pastGlobals (front ++ (word :: taken ++ rest)) front.length =
      pastGlobals (front ++ word :: taken ++ rest) (front ++ word :: taken).length := by
  have hopens : globalWidth word ≠ 0 := by simp [h]
  have hstep := pastGlobals_of_opens front hopens (taken ++ rest)
  simpa [h] using hstep

theorem pastGlobals_append {globals : List String} (h : Leading globals) (rest : List String) :
    pastGlobals (front ++ (globals ++ rest)) front.length =
      pastGlobals (front ++ globals ++ rest) (front ++ globals).length := by
  induction h generalizing front with
  | nil => simp
  | @flag word more hword _ ih =>
      have hstep := pastGlobals_switch front [] (globalWidth_flag hword) (more ++ rest)
      simpa using hstep.trans (ih (front ++ [word]))
  | @attached value more _ ih =>
      have hstep := pastGlobals_switch front [] (globalWidth_attached value) (more ++ rest)
      simpa using hstep.trans (ih (front ++ ["--config=" ++ value]))
  | @detached value more _ ih =>
      have hstep := pastGlobals_switch front [value] globalWidth_detached (more ++ rest)
      simpa using hstep.trans (ih (front ++ ["--config", value]))

end passing

theorem impliedByPlace_of_end {argv : List String} (h : argv.length ≤ pastGlobals argv 1) :
    impliedByPlace argv = .ok none := by
  rw [impliedByPlace, List.getElem?_eq_none h]

theorem impliedByPlace_of_word (program : String) {globals : List String} (h : Leading globals)
    {word : String} (hword : ¬ OpensSwitch word) (rest : List String) :
    impliedByPlace (program :: (globals ++ word :: rest)) =
      .ok (if isInput word then some (program :: (globals ++ "convert" :: word :: rest))
        else none) := by
  have hplace : pastGlobals (program :: (globals ++ word :: rest)) 1 =
      (program :: globals).length :=
    (pastGlobals_append [program] h (word :: rest)).trans (pastGlobals_of_word _ hword rest)
  rw [← List.cons_append] at hplace ⊢
  have hcut : cutAt (program :: globals ++ word :: rest) (program :: globals).length =
      .ok (program :: globals, word :: rest) := by
    rw [cutAt, if_pos (by simp)]
    simp
  rw [impliedByPlace, hplace, List.getElem?_append_right (Nat.le_refl _), Nat.sub_self, hcut]
  simp only [List.getElem?_cons_zero]
  split
  · rfl
  · rfl

/-- The search by places ends in the line that is implied, and never cuts a line behind its end. -/
theorem impliedByPlace_eq (argv : List String) : impliedByPlace argv = .ok (implied? argv) := by
  cases argv with
  | nil => exact impliedByPlace_of_end (by simp)
  | cons program words =>
      cases scanned words with
      | word rest hleading hopens =>
          rw [impliedByPlace_of_word program hleading hopens,
            implied?_leading program hleading hopens]
      | finished hleading =>
          have hplace := pastGlobals_append [program] hleading []
          rw [List.append_nil, List.append_nil, pastGlobals_of_end (Nat.le_refl _)] at hplace
          rw [implied?_finished program hleading]
          exact impliedByPlace_of_end (Nat.le_of_eq hplace.symm)
      | @valueMissing globals hleading =>
          -- The place that is reached is the one behind the value that is missing.
          have hpassed := pastGlobals_append [program] hleading ["--config"]
          have hopens : globalWidth "--config" ≠ 0 := by decide
          have hlast := pastGlobals_of_opens ([program] ++ globals) hopens []
          have hend : ([program] ++ globals ++ ["--config"]).length ≤
              ([program] ++ globals).length + globalWidth "--config" := by
            simp [globalWidth_detached]
          have hplace := (hpassed.trans hlast).trans (pastGlobals_of_end hend)
          rw [implied?_valueMissing program hleading]
          refine impliedByPlace_of_end ?_
          calc (program :: (globals ++ ["--config"])).length
              = ([program] ++ globals ++ ["--config"]).length := by simp
            _ ≤ ([program] ++ globals).length + globalWidth "--config" := hend
            _ = pastGlobals (program :: (globals ++ ["--config"])) 1 := hplace.symm

end places

/-- A line implies another one exactly when it can be taken apart into a program, global switches,
an input and what follows, which is then possible in one way only; the other one has the command to
convert before the input. Nothing is implied by the line that is implied. The search by places ends
for every line and cuts none behind its end. -/
theorem implied?_exact (argv : List String) :
    (∀ converted, implied? argv = some converted ↔
      ∃ l : InputLine, l.words = argv ∧ l.converted = converted) ∧
    Function.Injective InputLine.words ∧
    (implied? argv).bind implied? = none ∧
    impliedByPlace argv = .ok (implied? argv) := by
  refine ⟨fun converted => ⟨exists_inputLine_of_implied?, ?_⟩, InputLine.words_injective, ?_,
    impliedByPlace_eq argv⟩
  · intro h
    obtain ⟨l, hwords, hconverted⟩ := h
    rw [← hwords, ← hconverted]
    exact l.implied?_words
  · cases h : implied? argv with
    | none => rfl
    | some converted =>
        obtain ⟨l, -, hconverted⟩ := exists_inputLine_of_implied? h
        rw [Option.bind_some, ← hconverted]
        exact l.implied?_converted

end DocTree.CommandLine
