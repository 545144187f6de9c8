import DocTree.Proofs.Config.Order
import DocTree.Proofs.Config.Settings

/-!
Files as layers of a configuration. A file that is found puts what it gives for each setting in the
place of the setting, in whatever order its entries come, and so the last file that gives something
decides. A file that need not be there and is not there counts for nothing, and one that has to be
there and is not is an error.
-/

namespace DocTree.Config

open Value

namespace Value

/-- The groups of settings are tables where they are given. -/
def HasGroups (v : Value) : Prop :=
  ∀ group ∈ Setting.groups, ∀ w ∈ entriesAt group v, w.isTable = true

instance : DecidablePred HasGroups := fun v =>
  inferInstanceAs (Decidable (∀ group ∈ Setting.groups, ∀ w ∈ entriesAt group v, w.isTable = true))

theorem HasGroups.of_rearranged {v w : Value} (h : HasGroups v) (hvw : Rearranged v w) :
    HasGroups w := by
  intro group hgroup x hx
  obtain ⟨y, hy, hyx⟩ := hvw.exists_mem_entriesAt hx
  exact hyx.isTable_eq.symm.trans (h group hgroup y hy)

theorem HasGroups.leadsTo {entries : Entries} (h : HasGroups (.table entries)) (t : Setting) :
    LeadsTo t.keys (.table entries) := by
  have hgroup {key : String} (hkey : [key] ∈ Setting.groups) {entry : String × Value}
      (hentry : entry ∈ entries) (hname : Text.lower entry.1 = key) : entry.2.isTable = true :=
    h [key] hkey entry.2 (mem_entriesAt_cons.mpr ⟨entry, hentry, hname, List.mem_singleton_self _⟩)
  have hmdast {outer inner : String × Value} (houter : outer ∈ entries)
      (hconvert : Text.lower outer.1 = "convert") (hinner : inner ∈ outer.2.entries)
      (hname : Text.lower inner.1 = "mdast") : inner.2.isTable = true := by
    refine h ["convert", "mdast"] (by decide) inner.2 ?_
    refine mem_entriesAt_cons.mpr ⟨outer, houter, hconvert, mem_entriesAt_cons.mpr ?_⟩
    exact ⟨inner, hinner, hname, List.mem_singleton_self _⟩
  cases t with
  | backend | pretty | level =>
      exact ⟨rfl, fun entry hentry hname => ⟨hgroup (by decide) hentry hname, fun _ _ _ => trivial⟩⟩
  | flat | noAsciiDocData =>
      refine ⟨rfl, fun outer houter hconvert => ⟨hgroup (by decide) houter hconvert, ?_⟩⟩
      exact fun inner hinner hname =>
        ⟨hmdast houter hconvert hinner hname, fun _ _ _ => trivial⟩

end Value

/-- The table that a file spells, in which every key is a plain one. -/
def SourceFile.table? (file : SourceFile) : Option Value :=
  (Toml.read file.text).map fun entries =>
    .table ((Value.ofEntries (some file.name) entries).map Loader.plainEntry)

/-- A file that can be a layer: it is well-formed, and the groups of settings in it are tables. -/
def SourceFile.IsLayer (file : SourceFile) : Prop := ∃ table ∈ file.table?, table.HasGroups

instance : DecidablePred SourceFile.IsLayer := fun file =>
  inferInstanceAs (Decidable (∃ table ∈ file.table?, table.HasGroups))

/-- What the file of a layer gives for a setting, which is nothing if it is not there. -/
def FileLayer.given (find : String → Option SourceFile) (t : Setting) (layer : FileLayer) :
    List Value :=
  (find layer.path).elim [] fun file => file.table?.elim [] (Value.given t.keys)

namespace Loader

variable {find : String → Option SourceFile}

/-- The entries of a file are laid over others in any order. -/
theorem puts_rearrangedFile {entries arranged : Entries}
    (hgroups : HasGroups (.table (entries.map plainEntry)))
    (h : Rearranged (.table entries) (.table arranged)) (t : Setting) (below : Entries) :
    Puts t.keys (given t.keys (.table (entries.map plainEntry))) (.table below)
      (.table (overlayFile below arranged)) := by
  have hplain := rearranged_plain h
  refine Puts.of_rearranged ?_ hplain
  have hlead := (hgroups.of_rearranged hplain).leadsTo t
  cases t <;> exact puts_overlayFile _ _ below arranged hlead

/-- A layer that is not missed is passed, and puts what it gives in the place of each setting. -/
theorem overlayFiles_step (order : Order) {layer : FileLayer}
    (hfile : ∀ file ∈ find layer.path, file.IsLayer)
    (hpresent : layer.required = true → find layer.path ≠ none) (place : Nat) (below : Entries) :
    ∃ next entries,
      (∀ rest, overlayFiles order find place (layer :: rest) below =
        overlayFiles order find next rest entries) ∧
      ∀ t : Setting, Puts t.keys (layer.given find t) (.table below) (.table entries) := by
  cases hfind : find layer.path with
  | none =>
      have hoptional : layer.required = false := by
        simpa [hfind] using hpresent
      refine ⟨place, below, fun rest => ?_, fun t => ?_⟩
      · simp [overlayFiles, hfind, hoptional]
      · rw [FileLayer.given, hfind]
        exact .refl _ _
  | some file =>
      obtain ⟨table, htable, hgroups⟩ := hfile file hfind
      have hgiven (t : Setting) : layer.given find t = given t.keys table := by
        rw [FileLayer.given, hfind, Option.elim_some, Option.mem_def.mp htable, Option.elim_some]
      obtain ⟨entries, hread, rfl⟩ := Option.map_eq_some_iff.mp htable
      refine ⟨place + 1, overlayFile below
        (order.ofFile place (Value.ofEntries (some file.name) entries)), fun rest => ?_,
        fun t => ?_⟩
      · simp [overlayFiles, hfind, hread]
      · rw [hgiven]
        exact puts_rearrangedFile hgroups (order.ofFile_rearranged _ _) t below

/-- How files are laid over entries, if those that are found are layers. -/
theorem overlayFiles_run (order : Order) (layers : List FileLayer)
    (hfiles : ∀ layer ∈ layers, ∀ file ∈ find layer.path, file.IsLayer) (place : Nat)
    (below : Entries) :
    (∃ layer ∈ layers, layer.required = true ∧ find layer.path = none ∧
        overlayFiles order find place layers below = .error (.fileNotFound layer.path)) ∨
      (∀ layer ∈ layers, layer.required = true → find layer.path ≠ none) ∧
        ∃ entries, overlayFiles order find place layers below = .ok entries ∧ ∀ t : Setting,
          Puts t.keys (topmost (layers.map (FileLayer.given find t))) (.table below)
            (.table entries) := by
  induction layers generalizing place below with
  | nil => exact .inr ⟨nofun, below, rfl, fun _ => .refl _ _⟩
  | cons layer rest ih =>
      by_cases hpresent : layer.required = true → find layer.path ≠ none
      · obtain ⟨next, middle, hstep, hmiddle⟩ :=
          overlayFiles_step order (hfiles layer List.mem_cons_self) hpresent place below
        rw [hstep]
        obtain ⟨absent, hmem, habsent⟩ | ⟨hrest, entries, hentries, hputs⟩ :=
          ih (fun layer hmem => hfiles layer (List.mem_cons_of_mem _ hmem)) next middle
        · exact .inl ⟨absent, List.mem_cons_of_mem _ hmem, habsent⟩
        · exact .inr ⟨List.forall_mem_cons.mpr ⟨hpresent, hrest⟩, entries, hentries,
            fun t => (hmiddle t).trans (hputs t)⟩
      · obtain ⟨hrequired, habsent⟩ := Classical.not_imp.mp hpresent
        have habsent := Classical.not_not.mp habsent
        refine .inl ⟨layer, List.mem_cons_self, hrequired, habsent, ?_⟩
        simp [overlayFiles, habsent, hrequired]

/-- An optional file that is absent is not a layer at all. -/
theorem overlayFiles_absent {path : String} (order : Order) (habsent : find path = none)
    (before after : List FileLayer) (place : Nat) (below : Entries) :
    overlayFiles order find place (before ++ ⟨path, false⟩ :: after) below =
      overlayFiles order find place (before ++ after) below := by
  induction before generalizing place below with
  | nil => simp [overlayFiles, habsent]
  | cons layer rest ih => simp only [List.cons_append, overlayFiles, ih]

end Loader

end DocTree.Config
