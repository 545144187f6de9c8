import DocTree.Files
import DocTree.Proofs.Except

/-!
Writing a file. Of all files only the one is changed that the path leads to; it has the text then,
and is found by the path again.
-/

namespace DocTree.Files

variable {fs after : Files} {names other here steps : List String} {text : String}

section Put

theorem text?_put_self : (fs.put names text).text? names = some text := by
  rw [text?, put, List.lookup_cons_self]

theorem text?_put_of_ne (h : other ≠ names) : (fs.put names text).text? other = fs.text? other := by
  have hfilter (entries : List (List String × String)) :
      (entries.filter (·.1 ≠ names)).lookup other = entries.lookup other := by
    induction entries with
    | nil => rfl
    | cons entry entries ih =>
        rw [List.filter_cons, List.lookup_cons]
        by_cases hentry : entry.1 = names
        · rw [if_neg (by simp [hentry]), ih, hentry, beq_false_of_ne h]
        · rw [if_pos (by simp [hentry]), List.lookup_cons, ih]
  rw [text?, put, List.lookup_cons, beq_false_of_ne h, hfilter, text?]

theorem isDirectory_put (h : fs.isDirectory here = true) :
    (fs.put names text).isDirectory here = true := by
  obtain ⟨⟨file, t⟩, hfile, hbelow⟩ := List.any_eq_true.mp h
  refine List.any_eq_true.mpr ?_
  by_cases hnames : file = names
  · exact ⟨(names, text), List.mem_cons_self, hnames ▸ hbelow⟩
  · exact ⟨(file, t), List.mem_cons_of_mem _ (List.mem_filter.mpr ⟨hfile, by simpa⟩), hbelow⟩

end Put

section Walk

/-- The place of a file at the end of a walk, be the file there or not. -/
inductive EndsAt (fs : Files) (names : List String) : Found → Prop where
  | file {old : String} (h : fs.text? names = some old) : EndsAt fs names (.file names old)
  | vacant (habsent : fs.text? names = none) (h : fs.isDirectory names = false) :
      EndsAt fs names (.vacant names)

/-- A directory that a walk passes through is not where it ends with a file. -/
theorem EndsAt.ne_of_isDirectory {found : Found} (h : fs.EndsAt names found)
    (habsent : fs.text? here = none) (hdirectory : fs.isDirectory here = true) : here ≠ names := by
  rintro rfl
  cases h with
  | file hpresent => simp [habsent] at hpresent
  | vacant _ hvacant => simp [hdirectory] at hvacant

/-- The one step of a walk that is neither `.` nor `..`. -/
theorem walk_cons {name : String} (hdot : name ≠ ".") (hdots : name ≠ "..") :
    fs.walk here (name :: steps) =
      match fs.text? (here ++ [name]) with
      | some text =>
        if steps.isEmpty then .ok (.file (here ++ [name]) text) else .error .notDirectory
      | none =>
        if fs.isDirectory (here ++ [name]) then fs.walk (here ++ [name]) steps
        else if steps.isEmpty then .ok (.vacant (here ++ [name]))
        else .error .missing := by
  rw [walk, if_neg hdot]
  exact if_neg hdots

/-- A walk that ends at the place of a file ends at this file after it is written. -/
theorem walk_put {found : Found} (hwalk : fs.walk here steps = .ok found)
    (hfound : found ≠ .directory) :
    ∃ names, fs.EndsAt names found ∧
      ∀ text, (fs.put names text).walk here steps = .ok (.file names text) := by
  induction steps generalizing here with
  | nil =>
      cases hwalk
      exact absurd rfl hfound
  | cons name steps ih =>
      by_cases hdot : name = "."
      · rw [walk, if_pos hdot] at hwalk
        obtain ⟨names, hends, h⟩ := ih hwalk
        refine ⟨names, hends, fun text => ?_⟩
        rw [walk, if_pos hdot, h]
      by_cases hdots : name = ".."
      · rw [walk, if_neg hdot, if_pos hdots] at hwalk
        split at hwalk
        · split at hwalk <;> cases hwalk
          exact absurd rfl hfound
        · next hhere =>
            obtain ⟨names, hends, h⟩ := ih hwalk
            refine ⟨names, hends, fun text => ?_⟩
            rw [walk, if_neg hdot, if_pos hdots, if_neg hhere, h]
      rw [walk_cons hdot hdots] at hwalk
      split at hwalk
      · next old hpresent =>
          split at hwalk <;> cases hwalk
          next hlast =>
            refine ⟨_, .file hpresent, fun text => ?_⟩
            rw [walk_cons hdot hdots, text?_put_self]
            exact if_pos hlast
      · next habsent =>
          split at hwalk
          · next hdirectory =>
              obtain ⟨names, hends, h⟩ := ih hwalk
              -- a directory on the way is not the file, so the walk still passes through it
              have hne := hends.ne_of_isDirectory habsent hdirectory
              refine ⟨names, hends, fun text => ?_⟩
              rw [walk_cons hdot hdots, text?_put_of_ne hne, habsent]
              simp only [isDirectory_put hdirectory, ite_true, h]
          · next hdirectory =>
              split at hwalk <;> cases hwalk
              next hlast =>
                refine ⟨_, .vacant habsent (by simpa using hdirectory), fun text => ?_⟩
                rw [walk_cons hdot hdots, text?_put_self]
                exact if_pos hlast

end Walk

/-- The file that a path leads to, be it there or not. -/
def file? (fs : Files) (path : String) : Option (List String) := do
  let p ← Path.read? path
  if p.slashed then none
  else
    match fs.find p with
    | .ok (.file names _) | .ok (.vacant names) => some names
    | .ok .directory | .error _ => none

/-- Writing puts the text in the file that the path leads to, and still leads to from then on. -/
theorem write_eq_ok {path : String} (h : fs.write path text = .ok after) :
    ∃ names, fs.file? path = some names ∧ after = fs.put names text ∧
      after.read path = .ok text := by
  rw [write] at h
  rw [file?, read]
  cases hpath : Path.read? path with
  | none =>
      rw [hpath] at h
      cases h
  | some p =>
      rw [hpath] at h
      obtain ⟨found, hfind, h⟩ := bind_eq_ok_iff.mp h
      have hwalk := hfind
      rw [find] at hwalk
      split at hwalk
      · cases hwalk
      · next habsolute =>
          have hfound : found ≠ .directory := by
            rintro rfl
            cases h
          obtain ⟨names, hends, hput⟩ := walk_put hwalk hfound
          have hafter : p.slashed = false ∧ after = fs.put names text := by
            cases hends <;> cases hslashed : p.slashed <;> simp only [hslashed] at h <;> cases h <;>
              exact ⟨rfl, rfl⟩
          obtain ⟨hslashed, rfl⟩ := hafter
          refine ⟨names, ?_, rfl, ?_⟩
          · simp only [Option.bind_eq_bind, Option.bind_some, hslashed, hfind]
            cases hends <;> rfl
          · simp only [find, if_neg habsolute, hput, hslashed]
            rfl

end DocTree.Files
