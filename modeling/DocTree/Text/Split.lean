/-!
Cutting a text at every place where a character stands.
-/

namespace DocTree.Text

/-- The pieces between the separators, of which there is one more than of these. -/
def splitChars (separator : Char) : List Char → List (List Char)
  | [] => [[]]
  | c :: cs =>
    if c = separator then [] :: splitChars separator cs
    else
      match splitChars separator cs with
      | [] => [[c]]
      | piece :: pieces => (c :: piece) :: pieces

def split (separator : Char) (s : String) : List String :=
  (splitChars separator s.toList).map String.ofList

theorem splitChars_ne_nil (separator : Char) (cs : List Char) : splitChars separator cs ≠ [] := by
  cases cs with
  | nil => simp [splitChars]
  | cons c cs =>
    simp only [splitChars]
    split
    · simp
    · split <;> simp

/-- Nothing but separators is taken out. -/
theorem intercalate_splitChars (separator : Char) (cs : List Char) :
    List.intercalate [separator] (splitChars separator cs) = cs := by
  induction cs with
  | nil => rfl
  | cons c cs ih =>
    have h := splitChars_ne_nil separator cs
    revert ih h
    simp only [splitChars]
    cases splitChars separator cs with
    | nil => simp
    | cons piece pieces =>
      intro ih _
      by_cases hc : c = separator
      · subst hc
        simp only [if_true]
        rw [← ih]
        rfl
      · simp only [if_neg hc]
        rw [← ih]
        cases pieces <;> simp [List.intercalate, List.intersperse]

end DocTree.Text
