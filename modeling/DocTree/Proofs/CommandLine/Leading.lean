import DocTree.CommandLine.Implied

/-!
The global switches that a command line may begin with, given as a grammar, and how the front of a
line is cut off along it. Cutting is greedy: it goes on as long as a word opens a further switch,
and whatever follows `--config` is the value of that.
-/

namespace DocTree.CommandLine

/-- The words of global switches and their values. -/
inductive Leading : List String → Prop where
  | nil : Leading []
  | flag {word : String} {rest : List String}
      (hword : word ∈ ["--list-backends", "--verbose", "-v"]) (hrest : Leading rest) :
      Leading (word :: rest)
  | attached (value : String) {rest : List String} (hrest : Leading rest) :
      Leading (("--config=" ++ value) :: rest)
  | detached (value : String) {rest : List String} (hrest : Leading rest) :
      Leading ("--config" :: value :: rest)

/-- A word with which a global switch begins. -/
def OpensSwitch (word : String) : Prop :=
  word ∈ ["--list-backends", "--verbose", "-v"] ∨ word = "--config" ∨
    ∃ value, word = "--config=" ++ value

theorem attached_prefix_iff {word : String} :
    "--config=".toList.isPrefixOf word.toList = true ↔ ∃ value, word = "--config=" ++ value := by
  rw [List.isPrefixOf_iff_prefix]
  constructor
  · rintro ⟨cs, h⟩
    refine ⟨String.ofList cs, String.toList_injective (h.symm.trans ?_)⟩
    simp
  · rintro ⟨value, rfl⟩
    rw [String.toList_append]
    exact List.prefix_append _ _

theorem globalWidth_flag {word : String} (h : word ∈ ["--list-backends", "--verbose", "-v"]) :
    globalWidth word = 1 := by
  simp only [List.mem_cons, List.not_mem_nil, or_false] at h
  rcases h with rfl | rfl | rfl <;> rfl

theorem globalWidth_attached (value : String) : globalWidth ("--config=" ++ value) = 1 := by
  rw [globalWidth, attached_prefix_iff.mpr ⟨value, rfl⟩, Bool.or_true, if_pos rfl]

theorem globalWidth_detached : globalWidth "--config" = 2 := rfl

theorem globalWidth_eq_zero_iff {word : String} : globalWidth word = 0 ↔ ¬ OpensSwitch word := by
  constructor
  · rintro h (hword | rfl | ⟨value, rfl⟩)
    · exact absurd ((globalWidth_flag hword).symm.trans h) (by decide)
    · exact absurd (globalWidth_detached.symm.trans h) (by decide)
    · exact absurd ((globalWidth_attached value).symm.trans h) (by decide)
  · intro h
    rw [globalWidth, if_neg, if_neg]
    · exact fun hword => h (.inr (.inl hword))
    · rw [Bool.or_eq_true, attached_prefix_iff]
      rintro (hword | hvalue)
      · exact h (.inl (by simpa [or_assoc] using hword))
      · exact h (.inr (.inr hvalue))

section Split

variable {word next : String} {rest : List String}

theorem splitGlobals_of_zero (h : globalWidth word = 0) :
    splitGlobals (word :: rest) = ([], word :: rest) := by
  cases rest <;> simp only [splitGlobals, h, ite_true]

theorem splitGlobals_of_one (h : globalWidth word = 1) :
    splitGlobals (word :: rest) = (word :: (splitGlobals rest).1, (splitGlobals rest).2) := by
  cases rest with
  | nil => simp [splitGlobals, h]
  | cons next rest => simp only [splitGlobals, h]

theorem splitGlobals_of_two (h : globalWidth word = 2) :
    splitGlobals (word :: next :: rest) =
      (word :: next :: (splitGlobals rest).1, (splitGlobals rest).2) := by
  simp only [splitGlobals, h]

theorem splitGlobals_append {globals : List String} (h : Leading globals) (rest : List String) :
    splitGlobals (globals ++ rest) =
      (globals ++ (splitGlobals rest).1, (splitGlobals rest).2) := by
  induction h with
  | nil => rfl
  | flag hword _ ih => rw [List.cons_append, splitGlobals_of_one (globalWidth_flag hword), ih]; rfl
  | attached value _ ih =>
      rw [List.cons_append, splitGlobals_of_one (globalWidth_attached value), ih]
      rfl
  | detached value _ ih =>
      rw [List.cons_append, List.cons_append, splitGlobals_of_two globalWidth_detached, ih]
      rfl

end Split

end DocTree.CommandLine
