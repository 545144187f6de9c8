import DocTree.Proofs.CommandLine.Leading
import DocTree.Proofs.Except

/-!
Command lines without a command. Global switches and then an input are refused as they stand, by
whatever fault comes first; so such a line is read with the command to convert before the input.
All other lines are read as they stand.
-/

namespace DocTree.CommandLine

/-- A word that does not look like a switch. -/
def IsPlain (word : String) : Prop := word = "-" ∨ word.toList.head? ≠ some '-'

theorem isCommandName_iff {word : String} :
    isCommandName word = true ↔ word ∈ ["convert", "data", "help"] := by
  rw [isCommandName, Bool.or_eq_true, decide_eq_true_iff, Command.ofName?, helpCommand]
  by_cases hconvert : word = "convert"
  · simp [hconvert]
  · by_cases hdata : word = "data"
    · simp [hdata]
    · simp [hconvert, hdata]

theorem isInput_iff {word : String} :
    isInput word = true ↔ IsPlain word ∧ word ∉ ["convert", "data", "help"] := by
  rw [isInput, Bool.and_eq_true, Bool.or_eq_true, decide_eq_true_iff, decide_eq_true_iff,
    Bool.not_eq_true', ← Bool.not_eq_true, isCommandName_iff, IsPlain]

theorem OpensSwitch.not_isPlain {word : String} (h : OpensSwitch word) : ¬ IsPlain word := by
  rcases h with h | rfl | ⟨value, rfl⟩
  · simp only [List.mem_cons, List.not_mem_nil, or_false] at h
    rcases h with rfl | rfl | rfl <;> simp [IsPlain]
  · simp [IsPlain]
  · rintro (h | h)
    · simpa using congrArg String.toList h
    · exact h (by simp)

theorem Word.read_of_isPlain {word : String} (h : IsPlain word) : Word.read word = .plain word := by
  rcases h with rfl | h
  · rfl
  · rw [Word.read]
    split
    · next hword => simp [hword] at h
    · next hword => simp [hword] at h
    · next hword => simp [hword] at h
    · rfl

theorem Word.read_attached (value : String) :
    Word.read ("--config=" ++ value) = .long "config" (some value) := by
  have hchars : ("--config=" ++ value).toList =
      '-' :: '-' :: ("config=".toList ++ value.toList) := by
    simp
  rw [Word.read, hchars]
  simp [readLong]

namespace State

variable {state next : State} {word : String}

/-- No value is due, or none can come since the escape word was read. -/
def IsReady (state : State) : Prop := state.escaped = true ∨ state.isAwaiting = false

theorem isAwaiting_of_settle (h : state.settle = .ok next) : next.isAwaiting = false := by
  rw [settle] at h
  cases hu : state.underway <;> rw [hu] at h
  case nothing =>
    cases h
    rw [isAwaiting, hu]
  case awaited => cases h
  case setting s value =>
    simp only [setSetting] at h
    split at h <;> cases h
    rfl
  case input =>
    cases h
    rfl

theorem isAwaiting_of_setFlag {f : Flag} (h : state.setFlag f = .ok next) :
    next.isAwaiting = state.isAwaiting := by
  rw [setFlag] at h
  split at h <;> cases h
  rfl

theorem isAwaiting_of_setSetting {s : Setting} {value : String}
    (h : state.setSetting s value = .ok next) : next.isAwaiting = false := by
  rw [setSetting] at h
  split at h <;> cases h
  rfl

theorem isAwaiting_iff : state.isAwaiting = true ↔ ∃ s, state.underway = .awaited s := by
  rw [isAwaiting]
  cases state.underway <;> simp

theorem settle_of_isAwaiting (h : state.isAwaiting = true) :
    state.settle = .error .missingValue := by
  obtain ⟨s, hs⟩ := isAwaiting_iff.mp h
  rw [settle, hs]

/-- Every switch settles what is underway before it acts. -/
theorem readLong_eq_ok {scope : Scope} {name : String} {value : Option String}
    (h : state.readLong scope name value = .ok next) : ∃ settled, state.settle = .ok settled := by
  unfold readLong at h
  split at h
  case h_1 | h_4 => cases h
  all_goals
    obtain ⟨settled, hsettled, -⟩ := bind_eq_ok_iff.mp h
    exact ⟨settled, hsettled⟩

theorem readLetters_eq_ok {scope : Scope} {c : Char} {cs : List Char}
    (h : state.readLetters scope (c :: cs) = .ok next) : ∃ settled, state.settle = .ok settled := by
  rw [readLetters] at h
  split at h
  case h_1 => cases h
  all_goals
    obtain ⟨settled, hsettled, -⟩ := bind_eq_ok_iff.mp h
    exact ⟨settled, hsettled⟩

theorem readPlain_program_ne_ok : state.readPlain .program word ≠ .ok next := nofun

section Words

/-- A word where no command can start is read as a word, unless the escape word came before. -/
theorem step_program_eq_ok {found : Step}
    (hword : state.isAwaiting = true ∨ isCommandName word = false)
    (h : state.step .program word = .ok found) :
    state.escaped = false ∧
      ∃ next, found = .next next ∧ state.readWord .program word = .ok next := by
  rw [step] at h
  split at h
  · obtain ⟨_, hplain, _⟩ := bind_eq_ok_iff.mp h
    exact absurd hplain readPlain_program_ne_ok
  · next hescaped =>
      rw [if_neg (by rcases hword with hword | hword <;> simp [hword])] at h
      obtain ⟨next, hnext, hfound⟩ := bind_eq_ok_iff.mp h
      cases hfound
      exact ⟨by simpa using hescaped, next, rfl, hnext⟩

theorem readWord_flag (hword : word ∈ ["--list-backends", "--verbose", "-v"])
    (h : state.readWord .program word = .ok next) : next.isAwaiting = false := by
  have hflag : ∃ f settled, state.settle = .ok settled ∧ settled.setFlag f = .ok next := by
    simp only [List.mem_cons, List.not_mem_nil, or_false] at hword
    rcases hword with rfl | rfl | rfl
    · exact ⟨.listBackends, bind_eq_ok_iff.mp h⟩
    · exact ⟨.verbose, bind_eq_ok_iff.mp h⟩
    · obtain ⟨settled, hsettled, h⟩ := bind_eq_ok_iff.mp h
      obtain ⟨_, hset, h⟩ := bind_eq_ok_iff.mp h
      cases h
      exact ⟨.verbose, settled, hsettled, hset⟩
  obtain ⟨f, settled, hsettled, hset⟩ := hflag
  rw [isAwaiting_of_setFlag hset, isAwaiting_of_settle hsettled]

theorem readWord_attached {value : String}
    (h : state.readWord .program ("--config=" ++ value) = .ok next) : next.isAwaiting = false := by
  rw [readWord, Word.read_attached] at h
  obtain ⟨settled, hsettled, hset⟩ := bind_eq_ok_iff.mp h
  exact isAwaiting_of_setSetting hset

theorem readWord_detached (h : state.readWord .program "--config" = .ok next) :
    next.isAwaiting = true := by
  obtain ⟨settled, hsettled, h⟩ := bind_eq_ok_iff.mp h
  cases h
  rfl

/-- A word in the place of a value is taken for it, is the escape word, or is refused. -/
theorem readWord_of_isAwaiting (hstate : state.isAwaiting = true)
    (h : state.readWord .program word = .ok next) : next.IsReady := by
  have hsettle {settled : State} : state.settle ≠ .ok settled := by
    simp [settle_of_isAwaiting hstate]
  rw [readWord] at h
  split at h
  · cases h
    exact .inl rfl
  · obtain ⟨settled, hsettled⟩ := readLong_eq_ok h
    exact absurd hsettled hsettle
  · obtain ⟨settled, hsettled⟩ := readLetters_eq_ok h
    exact absurd hsettled hsettle
  · obtain ⟨s, hs⟩ := isAwaiting_iff.mp hstate
    rw [hs] at h
    cases h
    exact .inr rfl

theorem readWord_isPlain (hstate : state.isAwaiting = false) (hword : IsPlain word) :
    state.readWord .program word ≠ .ok next := by
  intro h
  simp only [readWord, Word.read_of_isPlain hword] at h
  split at h
  · next s hs =>
      rw [isAwaiting_iff.mpr ⟨s, hs⟩] at hstate
      cases hstate
  · exact readPlain_program_ne_ok h

end Words

end State

section Scan

variable {state : State} {word : String} {rest : List String}
  {found : State × Option (Command × List String)}

theorem scan_program_cons (hword : state.isAwaiting = true ∨ isCommandName word = false)
    (h : scan .program state (word :: rest) = .ok found) :
    ∃ next, state.escaped = false ∧ state.readWord .program word = .ok next ∧
      scan .program next rest = .ok found := by
  obtain ⟨step, hstep, h⟩ := bind_eq_ok_iff.mp h
  obtain ⟨hescaped, next, rfl, hnext⟩ := State.step_program_eq_ok hword hstep
  exact ⟨next, hescaped, hnext, h⟩

theorem not_isCommandName_of_opensSwitch (h : OpensSwitch word) : isCommandName word = false := by
  rw [← Bool.not_eq_true, isCommandName_iff]
  intro hname
  simp only [List.mem_cons, List.not_mem_nil, or_false] at hname
  exact h.not_isPlain (.inr (by rcases hname with rfl | rfl | rfl <;> simp))

/-- Global switches and then an input are refused, from every state in which no value is due. -/
theorem scan_leading_ne_ok {globals : List String} {input : String} (h : Leading globals)
    (hinput : isInput input = true) (hstate : state.IsReady) :
    scan .program state (globals ++ input :: rest) ≠ .ok found := by
  obtain ⟨hplain, hname⟩ := isInput_iff.mp hinput
  intro hfound
  -- The escape word can stand where the value of `--config` is due, and leaves that value due for
  -- good. The state may therefore also be an escaped one, from which no word gets on.
  induction h generalizing state with
  | nil =>
      rw [← isCommandName_iff, Bool.not_eq_true] at hname
      obtain ⟨next, hescaped, hread, -⟩ := scan_program_cons (.inr hname) hfound
      have hidle : state.isAwaiting = false := hstate.resolve_left (by simp [hescaped])
      exact State.readWord_isPlain hidle hplain hread
  | flag hword _ ih =>
      have hname := not_isCommandName_of_opensSwitch (.inl hword)
      obtain ⟨next, -, hread, hfound⟩ := scan_program_cons (.inr hname) hfound
      exact ih (.inr (State.readWord_flag hword hread)) hfound
  | attached value _ ih =>
      have hname := not_isCommandName_of_opensSwitch (.inr (.inr ⟨value, rfl⟩))
      obtain ⟨next, -, hread, hfound⟩ := scan_program_cons (.inr hname) hfound
      exact ih (.inr (State.readWord_attached hread)) hfound
  | detached value _ ih =>
      have hname := not_isCommandName_of_opensSwitch (.inr (.inl rfl))
      obtain ⟨next, -, hread, hfound⟩ := scan_program_cons (.inr hname) hfound
      have hawaiting := State.readWord_detached hread
      obtain ⟨after, -, hvalue, hfound⟩ := scan_program_cons (.inl hawaiting) hfound
      exact ih (State.readWord_of_isAwaiting hawaiting hvalue) hfound

end Scan

section Lines

/-- A line that implies no command, and is read as it stands. -/
def StandsAsIs (line : List String) : Prop := implied? line = none ∧ readImplied line = read line

theorem standsAsIs_of_implied? {line : List String} (h : implied? line = none) :
    StandsAsIs line := by
  refine ⟨h, ?_⟩
  rw [readImplied]
  cases read line with
  | ok _ => rfl
  | error _ => rw [h]

theorem readImplied_of_error {line converted : List String} {e : Refusal}
    (hread : read line = .error e) (h : implied? line = some converted) :
    readImplied line = read converted := by
  rw [readImplied, hread, h]

variable (program : String) {globals : List String}

theorem implied?_cons (words : List String) :
    implied? (program :: words) =
      match splitGlobals words with
      | (globals, input :: rest) =>
        if isInput input then some (program :: globals ++ "convert" :: input :: rest) else none
      | (_, []) => none := rfl

theorem implied?_leading (h : Leading globals) {word : String} (hword : ¬ OpensSwitch word)
    (rest : List String) :
    implied? (program :: (globals ++ word :: rest)) =
      if isInput word then some (program :: (globals ++ "convert" :: word :: rest)) else none := by
  rw [implied?_cons, splitGlobals_append h,
    splitGlobals_of_zero (globalWidth_eq_zero_iff.mpr hword), List.append_nil]
  rfl

theorem read_leading_eq_error (h : Leading globals) {input : String}
    (hinput : isInput input = true) (rest : List String) :
    ∃ e, read (program :: (globals ++ input :: rest)) = .error e := by
  cases hread : read (program :: (globals ++ input :: rest)) with
  | error e => exact ⟨e, rfl⟩
  | ok _ =>
      obtain ⟨_, hscan, -⟩ := bind_eq_ok_iff.mp hread
      exact absurd hscan (scan_leading_ne_ok h hinput (.inr rfl))

/-- A line that has an input after its global switches is read as the line with the command to
convert before the input. A line stands as it is when the name of a command or another switch comes
there, and when it ends within the global switches. -/
theorem readImplied_of_leading (h : Leading globals) :
    (∀ input rest, IsPlain input → input ∉ ["convert", "data", "help"] →
      (∃ e, read (program :: (globals ++ input :: rest)) = .error e) ∧
        readImplied (program :: (globals ++ input :: rest)) =
          read (program :: (globals ++ "convert" :: input :: rest))) ∧
    (∀ word rest, ¬ OpensSwitch word → word ∈ ["convert", "data", "help"] ∨ ¬ IsPlain word →
      StandsAsIs (program :: (globals ++ word :: rest))) ∧
    StandsAsIs (program :: globals) ∧ StandsAsIs (program :: (globals ++ ["--config"])) := by
  refine ⟨fun input rest hplain hname => ?_, fun word rest hopens hword => ?_, ?_, ?_⟩
  · have hinput : isInput input = true := isInput_iff.mpr ⟨hplain, hname⟩
    have himplied := implied?_leading program h (fun hopens => hopens.not_isPlain hplain) rest
    rw [if_pos hinput] at himplied
    obtain ⟨e, he⟩ := read_leading_eq_error program h hinput rest
    exact ⟨⟨e, he⟩, readImplied_of_error he himplied⟩
  · have hinput : ¬ isInput word = true := by
      rw [isInput_iff]
      rintro ⟨hplain, hname⟩
      exact hword.elim hname (· hplain)
    refine standsAsIs_of_implied? ?_
    rw [implied?_leading program h hopens, if_neg hinput]
  · have hsplit := splitGlobals_append h []
    rw [List.append_nil] at hsplit
    exact standsAsIs_of_implied? (by rw [implied?_cons, hsplit]; rfl)
  · exact standsAsIs_of_implied? (by rw [implied?_cons, splitGlobals_append h]; rfl)

/-- The value of `--config` may be the name of a command. -/
theorem readImplied_of_file_after_config :
    Leading ["-v", "--config", "convert"] ∧
      (∃ e, read ["adoc-json", "-v", "--config", "convert", "a.json", "--flat"] = .error e) ∧
      readImplied ["adoc-json", "-v", "--config", "convert", "a.json", "--flat"] =
        read ["adoc-json", "-v", "--config", "convert", "convert", "a.json", "--flat"] := by
  have h : Leading ["-v", "--config", "convert"] := .flag (by decide) (.detached "convert" .nil)
  obtain ⟨hinput, -, -, -⟩ := readImplied_of_leading "adoc-json" h
  exact ⟨h, hinput "a.json" ["--flat"] (.inr (by decide)) (by decide)⟩

end Lines

end DocTree.CommandLine
