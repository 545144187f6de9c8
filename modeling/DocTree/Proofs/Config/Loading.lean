import Mathlib.Data.List.Induction
import DocTree.Proofs.Config.Layers

/-!
Settings after any calls of a loader. However files and overrides are mixed, each setting is taken
on its own: from the last value that it is overridden with, or else from the last file that gives
something for it, or else from its default. An empty table gives nothing, wherever it stands. Only
of several entries that one file has for a setting it depends on the order in which the loader goes
through tables which one counts.
-/

namespace DocTree.Config

open Value

/-- One step in the making of a loader. -/
inductive Call where
  | file (path : String)
  | optionalFile (path : String)
  | override (setting : Setting) (value : Value)

namespace Call

def apply (l : Loader) : Call → Except ConfigError Loader
  | .file path => .ok (l.withFile path)
  | .optionalFile path => .ok (l.withOptionalFile path)
  | .override t v => l.setOverride t.key v

def layer? : Call → Option FileLayer
  | .file path => some ⟨path, true⟩
  | .optionalFile path => some ⟨path, false⟩
  | .override _ _ => none

def assigned? : Call → Option (KeyPath × Value)
  | .override t v => some (t.path, v)
  | .file _ | .optionalFile _ => none

/-- What a call overrides a setting with. -/
def overriding? (t : Setting) : Call → Option Value
  | .override other v => if other = t then some v else none
  | .file _ | .optionalFile _ => none

end Call

/-- A call that neither overrides a setting nor names a file that gives something for it. -/
def Call.LeavesAlone (find : String → Option SourceFile) (t : Setting) (call : Call) : Prop :=
  call.overriding? t = none ∧ ∀ layer ∈ call.layer?, layer.given find t = []

/-- What a setting is overridden with, by the last call that does so. -/
def overridden (calls : List Call) (t : Setting) : List Value :=
  (calls.filterMap (Call.overriding? t)).getLast?.elim [] (given [])

/-- What the files give for a setting, from the first to the last. -/
def givenByFiles (find : String → Option SourceFile) (calls : List Call) (t : Setting) :
    List (List Value) :=
  (calls.filterMap Call.layer?).map (FileLayer.given find t)

/-- The values of which one decides about a setting. There are several only where one file has
several entries for it. -/
def deciding (find : String → Option SourceFile) (calls : List Call) (t : Setting) : List Value :=
  upon (overridden calls t) (upon (topmost (givenByFiles find calls t)) [.scalar t.default none])

namespace Loader

/-- The loader that is made by calls, one after the other. -/
def ofCalls (calls : List Call) : Except ConfigError Loader := calls.foldlM Call.apply {}

end Loader

/-- The settings that are loaded after calls. -/
def load (order : Order) (find : String → Option SourceFile) (calls : List Call) :
    Except ConfigError Settings := do
  (← Loader.ofCalls calls).build find order

namespace Loader

/-- The overrides that remain of assignments, one after the other. -/
def overridesOf (assignments : List (KeyPath × Value)) : List (KeyPath × Value) :=
  assignments.foldl (fun overrides (path, v) => overrides.filter (·.1 ≠ path) ++ [(path, v)]) []

/-- The overrides that remain of calls, in the order in which the loader goes through them. -/
def overridesAfter (order : Order) (calls : List Call) : List (KeyPath × Value) :=
  order.ofOverrides (overridesOf (calls.filterMap Call.assigned?))

def assignAll (assignments : List (KeyPath × Value)) (below : Entries) : Entries :=
  assignments.foldl (fun below (path, v) => path.assign v below) below

/-- The values that are assigned to a path. -/
def valuesAt (path : KeyPath) (assignments : List (KeyPath × Value)) : List Value :=
  assignments.filterMap fun entry => if entry.1 = path then some entry.2 else none

theorem valuesAt_cons (path : KeyPath) (assignment : KeyPath × Value)
    (rest : List (KeyPath × Value)) :
    valuesAt path (assignment :: rest) =
      if assignment.1 = path then assignment.2 :: valuesAt path rest else valuesAt path rest := by
  by_cases h : assignment.1 = path <;> simp [valuesAt, h]

theorem overridesOf_append_singleton (assignments : List (KeyPath × Value)) (path : KeyPath)
    (v : Value) :
    overridesOf (assignments ++ [(path, v)]) =
      (overridesOf assignments).filter (·.1 ≠ path) ++ [(path, v)] := by
  rw [overridesOf, List.foldl_append]
  rfl

theorem mem_of_mem_overridesOf {assignments : List (KeyPath × Value)} {entry : KeyPath × Value}
    (h : entry ∈ overridesOf assignments) : entry ∈ assignments := by
  induction assignments using List.reverseRecOn with
  | nil => exact h
  | append_singleton assignments last ih =>
      rw [overridesOf_append_singleton] at h
      refine List.mem_append.mpr ((List.mem_append.mp h).imp_left fun h => ih ?_)
      exact (List.mem_filter.mp h).1

theorem valuesAt_filter_ne (path other : KeyPath) (assignments : List (KeyPath × Value)) :
    valuesAt path (assignments.filter (·.1 ≠ other)) =
      if other = path then [] else valuesAt path assignments := by
  rw [valuesAt, List.filterMap_filter]
  by_cases h : other = path
  · subst h
    rw [if_pos rfl, List.filterMap_eq_nil_iff]
    intro entry _
    by_cases hentry : entry.1 = other <;> simp [hentry]
  · rw [if_neg h, valuesAt]
    refine congrArg (List.filterMap · assignments) (funext fun entry => ?_)
    by_cases hentry : entry.1 = path
    · simp [hentry, Ne.symm h]
    · simp [hentry]

/-- Of the values that are assigned to a path, the last one remains. -/
theorem valuesAt_overridesOf (path : KeyPath) (assignments : List (KeyPath × Value)) :
    valuesAt path (overridesOf assignments) = (valuesAt path assignments).getLast?.toList := by
  -- From the end, as an assignment takes away what was there before it.
  induction assignments using List.reverseRecOn with
  | nil => rfl
  | append_singleton assignments last ih =>
      obtain ⟨other, v⟩ := last
      have happend (before : List (KeyPath × Value)) : valuesAt path (before ++ [(other, v)]) =
          valuesAt path before ++ if other = path then [v] else [] := by
        by_cases h : other = path <;> simp [valuesAt, h]
      rw [overridesOf_append_singleton, happend, happend, valuesAt_filter_ne]
      by_cases h : other = path
      · simp [h]
      · simp [h, ih]

theorem apply_eq (call : Call) (files : List FileLayer) (assignments : List (KeyPath × Value)) :
    call.apply ⟨files, overridesOf assignments⟩ =
      .ok ⟨files ++ call.layer?.toList, overridesOf (assignments ++ call.assigned?.toList)⟩ := by
  cases call with
  | file path | optionalFile path =>
      simp [Call.apply, Call.layer?, Call.assigned?, withFile, withOptionalFile]
  | override t v =>
      simp only [Call.apply, setOverride, t.read_key, Call.layer?, Call.assigned?,
        Option.toList_none, Option.toList_some, List.append_nil, overridesOf_append_singleton]

theorem ofCalls_eq (calls : List Call) :
    ofCalls calls =
      .ok ⟨calls.filterMap Call.layer?, overridesOf (calls.filterMap Call.assigned?)⟩ := by
  induction calls using List.reverseRecOn with
  | nil => rfl
  | append_singleton calls call ih =>
      have hsingleton {β : Type} (f : Call → Option β) : [call].filterMap f = (f call).toList := by
        cases h : f call <;> simp [h]
      rw [ofCalls, List.foldlM_append, ← ofCalls, ih, List.filterMap_append, List.filterMap_append,
        hsingleton, hsingleton]
      exact congrArg (· >>= pure) (apply_eq call _ _)

theorem leadsTo_override (other t : Setting) (v : Value) :
    LeadsTo t.keys (.table [other.path.entry v]) := by
  refine HasGroups.leadsTo ?_ t
  cases other <;> exact of_decide_eq_true rfl

theorem given_override (other t : Setting) (v : Value) :
    given t.keys (.table [other.path.entry v]) = if other = t then given [] v else [] := by
  cases t <;> cases other <;> rfl

/-- Every setting is overridden by what is set for it, whatever is set beside it. -/
theorem puts_overrides (t : Setting) (overrides : List (KeyPath × Value))
    (hpaths : ∀ entry ∈ overrides, ∃ other : Setting, entry.1 = other.path) (below : Entries) :
    Puts t.keys (topmost ((valuesAt t.path overrides).map (given []))) (.table below)
      (.table (assignAll overrides below)) := by
  induction overrides generalizing below with
  | nil => exact .refl _ _
  | cons entry rest ih =>
      obtain ⟨path, v⟩ := entry
      obtain ⟨other, rfl⟩ := hpaths _ List.mem_cons_self
      have hentry := KeyPath.puts_assign t.keys other.path v below (leadsTo_override other t v)
      have hrest : ∀ e ∈ rest, ∃ other : Setting, e.1 = other.path := fun e he =>
        hpaths e (List.mem_cons_of_mem _ he)
      have hputs := hentry.trans (ih hrest (other.path.assign v below))
      rw [given_override] at hputs
      rw [valuesAt_cons]
      by_cases h : other = t
      · rw [if_pos h] at hputs
        rw [if_pos (Setting.path_inj.mpr h)]
        exact hputs
      · rw [if_neg h, upon_nil] at hputs
        rw [if_neg fun heq => h (Setting.path_inj.mp heq)]
        exact hputs

theorem exists_path_of_mem_overridesAfter {order : Order} {calls : List Call}
    {entry : KeyPath × Value} (h : entry ∈ overridesAfter order calls) :
    ∃ t : Setting, entry.1 = t.path := by
  have hmem := mem_of_mem_overridesOf ((order.ofOverrides_perm _).mem_iff.mp h)
  obtain ⟨call, -, hcall⟩ := List.mem_filterMap.mp hmem
  cases call with
  | file path | optionalFile path => cases hcall
  | override t v =>
      cases hcall
      exact ⟨t, rfl⟩

theorem valuesAt_assigned (t : Setting) (calls : List Call) :
    valuesAt t.path (calls.filterMap Call.assigned?) = calls.filterMap (Call.overriding? t) := by
  rw [valuesAt, List.filterMap_filterMap]
  refine congrArg (List.filterMap · calls) (funext fun call => ?_)
  cases call with
  | file path | optionalFile path => rfl
  | override other v => simp [Call.assigned?, Call.overriding?, Setting.path_inj]

/-- One value at most remains for a setting, so the order of what remains does not matter. -/
theorem valuesAt_overridesAfter (order : Order) (t : Setting) (calls : List Call) :
    valuesAt t.path (overridesAfter order calls) =
      (calls.filterMap (Call.overriding? t)).getLast?.toList := by
  have hperm : (valuesAt t.path (overridesAfter order calls)).Perm
      (calls.filterMap (Call.overriding? t)).getLast?.toList := by
    rw [← valuesAt_assigned, ← valuesAt_overridesOf]
    exact (order.ofOverrides_perm _).filterMap _
  cases hlast : (calls.filterMap (Call.overriding? t)).getLast? with
  | none =>
      rw [hlast] at hperm
      exact hperm.eq_nil
  | some v =>
      rw [hlast] at hperm
      exact List.perm_singleton.mp hperm

/-- Every setting is overridden by the last call that does so, whatever files are named between. -/
theorem puts_overridesAfter (order : Order) (t : Setting) (calls : List Call) (below : Entries) :
    Puts t.keys (overridden calls t) (.table below)
      (.table (assignAll (overridesAfter order calls) below)) := by
  have hputs := puts_overrides t (overridesAfter order calls)
    (fun _ => exists_path_of_mem_overridesAfter) below
  rw [valuesAt_overridesAfter] at hputs
  rw [overridden]
  cases hlast : (calls.filterMap (Call.overriding? t)).getLast? <;> rwa [hlast] at hputs

end Loader

section load

variable {order : Order} {find : String → Option SourceFile} {calls : List Call}

theorem load_eq (order : Order) (find : String → Option SourceFile) (calls : List Call) :
    load order find calls = (do
      let below ← Loader.overlayFiles order find 0 (calls.filterMap Call.layer?) defaults
      Settings.ofEntries order (Loader.assignAll (Loader.overridesAfter order calls) below)) := by
  rw [load, Loader.ofCalls_eq]
  change (Loader.overlayFiles order find 0 (calls.filterMap Call.layer?) defaults >>=
    fun below => Except.ok _) >>= Settings.ofEntries order = _
  cases Loader.overlayFiles order find 0 (calls.filterMap Call.layer?) defaults <;> rfl

theorem mem_layers_iff {path : String} {required : Bool} :
    ⟨path, required⟩ ∈ calls.filterMap Call.layer? ↔
      (if required then Call.file path else Call.optionalFile path) ∈ calls := by
  rw [List.mem_filterMap]
  constructor
  · rintro ⟨call, hmem, hlayer⟩
    cases call <;> cases hlayer <;> exact hmem
  · cases required <;> exact fun hmem => ⟨_, hmem, rfl⟩

/-- All files that are found for the calls are layers. -/
def FilesAreLayers (find : String → Option SourceFile) (calls : List Call) : Prop :=
  ∀ call ∈ calls, ∀ layer ∈ call.layer?, ∀ file ∈ find layer.path, file.IsLayer

instance : Decidable (FilesAreLayers find calls) :=
  inferInstanceAs (Decidable
    (∀ call ∈ calls, ∀ layer ∈ call.layer?, ∀ file ∈ find layer.path, file.IsLayer))

/-- All files are found that have to be there. -/
def FilesFound (find : String → Option SourceFile) (calls : List Call) : Prop :=
  ∀ path, Call.file path ∈ calls → find path ≠ none

/-- Loading fails for a file that is missed, or takes every setting from a value that decides about
it. -/
theorem load_cases (hfiles : FilesAreLayers find calls) (order : Order) :
    (∃ path, Call.file path ∈ calls ∧ find path = none ∧
        load order find calls = .error (.fileNotFound path)) ∨
      FilesFound find calls ∧ ∃ values : Setting → Value,
        (∀ t, values t ∈ deciding find calls t) ∧ ∀ s, load order find calls = .ok s ↔
          ∀ t : Setting, t.decode (values t) = .ok (s.setting t) := by
  have hlayers (layer : FileLayer) (hlayer : layer ∈ calls.filterMap Call.layer?) :
      ∀ file ∈ find layer.path, file.IsLayer := by
    obtain ⟨call, hcall, hlayer⟩ := List.mem_filterMap.mp hlayer
    exact hfiles call hcall layer hlayer
  obtain ⟨⟨path, _⟩, hmem, rfl, habsent, herror⟩ | ⟨hfound, below, hbelow, hputs⟩ :=
    Loader.overlayFiles_run order _ hlayers 0 defaults
  · refine .inl ⟨path, mem_layers_iff.mp hmem, habsent, ?_⟩
    rw [load_eq, herror]
    rfl
  · refine .inr ⟨fun path hpath => hfound ⟨path, true⟩ (mem_layers_iff.mpr hpath) rfl, ?_⟩
    -- The default of a setting is in its place; first the files put something there, and then the
    -- overrides.
    have hplace (t : Setting) : ∃ w,
        at? t.keys (.table (Loader.assignAll (Loader.overridesAfter order calls) below)) = some w ∧
        ∃ x ∈ deciding find calls t, Alike w x := by
      have hputs := (hputs t).trans (Loader.puts_overridesAfter order t calls below)
      rw [deciding, ← upon_assoc]
      exact hputs _ t.at?_defaults
    choose found hfound values hvalues halike using hplace
    refine ⟨values, hvalues, fun s => ?_⟩
    rw [load_eq, hbelow]
    refine (ofEntries_eq_ok_iff_decode hfound order s).trans ?_
    exact forall_congr' fun t => (halike t).decode_eq_ok_iff t _

theorem exists_decode_of_load (hfiles : FilesAreLayers find calls) {s : Settings}
    (h : load order find calls = .ok s) (t : Setting) :
    ∃ v ∈ deciding find calls t, t.decode v = .ok (s.setting t) := by
  obtain ⟨path, -, -, herror⟩ | ⟨-, values, hvalues, hload⟩ := load_cases hfiles order
  · cases herror.symm.trans h
  · exact ⟨values t, hvalues t, (hload s).mp h t⟩

theorem deciding_without {before after : List Call} {call : Call} {t : Setting}
    (h : call.LeavesAlone find t) :
    deciding find (before ++ call :: after) t = deciding find (before ++ after) t := by
  obtain ⟨hoverriding, hlayer⟩ := h
  have hoverridden : overridden (before ++ call :: after) t = overridden (before ++ after) t := by
    simp only [overridden, List.filterMap_append, List.filterMap_cons, hoverriding]
  have hfiles : topmost (givenByFiles find (before ++ call :: after) t) =
      topmost (givenByFiles find (before ++ after) t) := by
    simp only [givenByFiles, List.filterMap_append, List.map_append, List.filterMap_cons]
    cases hcall : call.layer? with
    | none => rfl
    | some layer =>
        rw [List.map_cons, hlayer layer hcall]
        exact topmost_without _ _
  rw [deciding, deciding, hoverridden, hfiles]

theorem length_topmost_le {layers : List (List Value)} (h : ∀ layer ∈ layers, layer.length ≤ 1) :
    (topmost layers).length ≤ 1 := by
  induction layers with
  | nil => exact Nat.zero_le 1
  | cons lowest upper ih =>
      have hupper := ih fun layer hlayer => h layer (List.mem_cons_of_mem _ hlayer)
      rw [topmost]
      cases htop : topmost upper with
      | nil => exact h lowest List.mem_cons_self
      | cons v vs => rwa [htop] at hupper

/-- One value decides about a setting for which no file has several entries. -/
theorem exists_deciding_eq {t : Setting}
    (h : ∀ given ∈ givenByFiles find calls t, given.length ≤ 1) :
    ∃ v, deciding find calls t = [v] := by
  have hoverridden : (overridden calls t).length ≤ 1 := by
    rw [overridden]
    cases (calls.filterMap (Call.overriding? t)).getLast? with
    | none => exact Nat.zero_le 1
    | some v => exact List.length_filter_le (fun w => !w.isEmptyTable) [v]
  rw [deciding]
  match hupper : overridden calls t, hlower : topmost (givenByFiles find calls t) with
  | [], [] => exact ⟨_, rfl⟩
  | [], [v] => exact ⟨v, rfl⟩
  | [v], _ => exact ⟨v, rfl⟩
  | [], _ :: _ :: _ =>
      have hfiles := length_topmost_le h
      rw [hlower] at hfiles
      simp at hfiles
  | _ :: _ :: _, _ =>
      rw [hupper] at hoverridden
      simp at hoverridden

theorem load_without_absent {before after : List Call} {path : String} (order : Order)
    (habsent : find path = none) :
    load order find (before ++ .optionalFile path :: after) =
      load order find (before ++ after) := by
  have hoverrides : Loader.overridesAfter order (before ++ .optionalFile path :: after) =
      Loader.overridesAfter order (before ++ after) := by
    rw [Loader.overridesAfter, Loader.overridesAfter, List.filterMap_append, List.filterMap_append]
    rfl
  rw [load_eq, load_eq, hoverrides, List.filterMap_append, List.filterMap_append]
  exact congrArg (· >>= _) (Loader.overlayFiles_absent order habsent _ _ 0 defaults)

/-- How settings are loaded after calls, in whatever order the loader goes through tables. -/
structure IsLayered (find : String → Option SourceFile) (calls : List Call) : Prop where
  /-- A file that has to be there and is not makes the loading fail. -/
  missing : ¬ FilesFound find calls → ∀ order, ∃ path, Call.file path ∈ calls ∧
    find path = none ∧ load order find calls = .error (.fileNotFound path)
  /-- Otherwise each setting is taken from a value that decides about it. -/
  resolved : FilesFound find calls → ∀ order, ∃ values : Setting → Value,
    (∀ t, values t ∈ deciding find calls t) ∧ ∀ s, load order find calls = .ok s ↔
      ∀ t : Setting, t.decode (values t) = .ok (s.setting t)
  /-- That is one value, but where one file has several entries for the setting. -/
  single : ∀ t : Setting, (∀ given ∈ givenByFiles find calls t, given.length ≤ 1) →
    ∃ v, deciding find calls t = [v]
  /-- There are settings as soon as each of them can be taken. -/
  complete : FilesFound find calls →
    (∀ t : Setting, ∀ v ∈ deciding find calls t, ∃ a, t.decode v = .ok a) →
      ∀ order, ∃ s, load order find calls = .ok s
  /-- A call that gives nothing for a setting has no part in it. -/
  independent : ∀ before call after, calls = before ++ call :: after →
    ∀ t : Setting, call.LeavesAlone find t →
      deciding find calls t = deciding find (before ++ after) t ∧
      ∀ v, deciding find calls t = [v] → ∀ order order' s s', load order find calls = .ok s →
        load order' find (before ++ after) = .ok s' → s.setting t = s'.setting t
  /-- An optional file that is absent has no part in anything. -/
  absent : ∀ before path after, calls = before ++ .optionalFile path :: after →
    find path = none → ∀ order, load order find calls = load order find (before ++ after)

theorem load_isLayered (hfiles : FilesAreLayers find calls) : IsLayered find calls := by
  have hcases := load_cases hfiles
  have hresolved (hfound : FilesFound find calls) (order : Order) :=
    ((hcases order).resolve_left fun ⟨path, hpath, habsent, _⟩ => hfound path hpath habsent).2
  refine ⟨fun hmissing order => (hcases order).resolve_right fun h => hmissing h.1, hresolved,
    fun t => exists_deciding_eq, ?_, ?_, ?_⟩
  · intro hfound hdecode order
    obtain ⟨values, hvalues, hload⟩ := hresolved hfound order
    obtain ⟨s, hs⟩ := Settings.exists_of_decode fun t => hdecode t _ (hvalues t)
    exact ⟨s, (hload s).mpr hs⟩
  · rintro before call after rfl t hcall
    refine ⟨deciding_without hcall, fun v hv order order' s s' hload hload' => ?_⟩
    have hfiles' : FilesAreLayers find (before ++ after) := fun other hother =>
      hfiles other (((List.sublist_cons_self call after).append_left before).subset hother)
    obtain ⟨w, hw, hs⟩ := exists_decode_of_load hfiles hload t
    obtain ⟨w', hw', hs'⟩ := exists_decode_of_load hfiles' hload' t
    rw [hv] at hw
    rw [← deciding_without hcall, hv] at hw'
    rw [List.mem_singleton.mp hw] at hs
    rw [List.mem_singleton.mp hw'] at hs'
    exact Except.ok.inj (hs.symm.trans hs')
  · rintro before path after rfl habsent order
    exact load_without_absent order habsent

end load

/-- Files that are found by their names. -/
def SourceFile.among (files : List SourceFile) (path : String) : Option SourceFile :=
  files.find? (·.name = path)

theorem load_isLayered_fileAfterOverride :
    let find := SourceFile.among
      [⟨"base.toml", "convert.pretty = false\nconvert.mdast.flat = false"⟩,
        ⟨"local.toml", "Convert.Backend = 'json'"⟩]
    let calls := [.override .flat (.bool true), .file "base.toml", .optionalFile "absent.toml",
      .optionalFile "local.toml", .override .pretty (.table [])]
    IsLayered find calls ∧
      (load .asWritten find calls).toOption = some ⟨⟨"json", false, ⟨true, false⟩⟩, "warn"⟩ :=
  ⟨load_isLayered (by decide +kernel), by decide +kernel⟩

/-- Of two entries of one file for a setting either may count. -/
example :
    let backwards : Order := { Order.asWritten with
      ofFile := fun _ entries => entries.reverse
      ofFile_rearranged := fun _ entries => .entries (List.reverse_perm entries).symm }
    let find := SourceFile.among
      [⟨"both.toml", "\"convert.pretty\" = false\n[convert]\npretty = true"⟩]
    (load .asWritten find [.file "both.toml"]).toOption =
        some ⟨⟨"mdast", true, ⟨false, false⟩⟩, "warn"⟩ ∧
      (load backwards find [.file "both.toml"]).toOption =
        some ⟨⟨"mdast", false, ⟨false, false⟩⟩, "warn"⟩ := by
  decide +kernel

/-- The last file with a value for a setting need not decide about it, not even if the value is not
one for the setting: an empty table is passed over. -/
theorem emptyTable_passedOver :
    let base : SourceFile := ⟨"base.toml", "convert.mdast.flat = true"⟩
    let last : SourceFile := ⟨"last.toml", "convert.mdast.flat = \x7b\x7d"⟩
    base.IsLayer ∧ last.IsLayer ∧
      (∃ table ∈ last.table?, ∃ v ∈ entriesAt Setting.flat.keys table,
        (Setting.flat.decode v).isOk = false) ∧
      (load .asWritten (SourceFile.among [base, last])
        [.file "base.toml", .file "last.toml"]).toOption =
        some ⟨⟨"mdast", true, ⟨true, false⟩⟩, "warn"⟩ := by
  decide +kernel

end DocTree.Config
