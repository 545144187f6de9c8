import DocTree.Proofs.Config.Loading
import DocTree.Proofs.Program.Storage

/-!
Up to the point where a result is delivered, a program only reads: the steps before that come to
their results, good or bad, and leave the files as they are. The settings are those of two layers at
most, the local file and the file that is asked for.
-/

namespace DocTree.Program

open CommandLine (Request)
open Config (Loader Settings)

section Reads

variable {σ α β : Type} {s : σ} {x : ExceptT Failure (StateM σ) α}
  {f : α → ExceptT Failure (StateM σ) β}

/-- A computation comes to a result and changes nothing. -/
def Reads (x : ExceptT Failure (StateM σ) α) (s : σ) (result : Except Failure α) : Prop :=
  x.run.run s = (result, s)

theorem Reads.pure (s : σ) (a : α) : Reads (Pure.pure a) s (.ok a) := rfl

theorem Reads.throw (s : σ) (e : Failure) :
    Reads (MonadExcept.throw e : ExceptT Failure (StateM σ) α) s (.error e) := rfl

theorem Reads.lift {y : StateM σ α} {a : α} (h : y.run s = (a, s)) : Reads (liftM y) s (.ok a) := by
  change (Except.ok (y.run s).1, (y.run s).2) = _
  rw [h]

theorem Reads.run_bind {result : Except Failure α} (h : Reads x s result) :
    (x >>= f).run.run s = (ExceptT.bindCont f result).run s := by
  change (ExceptT.bindCont f (x.run.run s).1).run (x.run.run s).2 = _
  rw [show x.run.run s = (result, s) from h]

theorem Reads.bind_ok {a : α} {result : Except Failure β} (h : Reads x s (.ok a))
    (hf : Reads (f a) s result) : Reads (x >>= f) s result :=
  h.run_bind.trans hf

theorem Reads.bind_error {e : Failure} (h : Reads x s (.error e)) :
    Reads (x >>= f) s (.error e) :=
  h.run_bind

theorem Reads.mapM {g : α → β} (h : ∀ a, Reads (f a) s (.ok (g a))) (as : List α) :
    Reads (as.mapM f) s (.ok (as.map g)) := by
  induction as with
  | nil => exact .pure s []
  | cons a as ih =>
      rw [List.mapM_cons]
      exact (h a).bind_ok (ih.bind_ok (.pure s _))

end Reads

section Configuration

variable {order : Config.Order} {find other : String → Option Config.SourceFile}

theorem overlayFiles_congr {layers : List Config.FileLayer}
    (h : ∀ layer ∈ layers, find layer.path = other layer.path) (place : Nat)
    (below : Config.Entries) :
    Loader.overlayFiles order find place layers below =
      Loader.overlayFiles order other place layers below := by
  induction layers generalizing place below with
  | nil => rfl
  | cons layer layers ih =>
      have ih := ih fun l hl => h l (List.mem_cons_of_mem _ hl)
      simp only [Loader.overlayFiles, h layer List.mem_cons_self, ih]

/-- Only the files of the layers are looked for. -/
theorem build_congr {l : Loader} (h : ∀ layer ∈ l.files, find layer.path = other layer.path) :
    l.build find order = l.build other order := by
  simp only [Loader.build, Loader.entries, overlayFiles_congr h]

theorem lookup_map_path {layers : List Config.FileLayer} {layer : Config.FileLayer}
    (h : layer ∈ layers) :
    (layers.map fun l => (l.path, find l.path)).lookup layer.path = some (find layer.path) := by
  induction layers with
  | nil => cases h
  | cons first layers ih =>
      rw [List.map_cons, List.lookup_cons]
      by_cases hfirst : layer.path = first.path
      · rw [hfirst, beq_self_eq_true]
      · rw [beq_false_of_ne hfirst]
        exact ih ((List.mem_cons.mp h).resolve_left fun heq => hfirst (heq ▸ rfl))

end Configuration

section Steps

variable {σ : Type} (w : World σ) (s : σ)

/-- The layers of a run's settings, of which the last one counts most. -/
def layers (config : Option String) : List Config.Call :=
  .optionalFile "adoc-json.toml" :: (config.map Config.Call.file).toList

/-- The settings that the files give. -/
def settingsAt (config : Option String) : Except Config.ConfigError Settings :=
  Config.load w.order (w.sourceFile? s) (layers config)

theorem build_loader (order : Config.Order) (find : String → Option Config.SourceFile)
    (config : Option String) :
    (loader config).build find order = Config.load order find (layers config) := by
  cases config <;> rfl

/-- Each setting is what the file that is asked for gives for it, or else the local file, or else
its default. -/
theorem settingsAt_layered {config : Option String} {settings : Settings}
    (hfiles : Config.FilesAreLayers (w.sourceFile? s) (layers config))
    (h : settingsAt w s config = .ok settings) (t : Config.Setting) :
    let given (path : String) := Config.FileLayer.given (w.sourceFile? s) t ⟨path, true⟩
    ∃ v ∈ Config.Value.upon (config.elim [] given)
        (Config.Value.upon (given "adoc-json.toml") [.scalar t.default none]),
      t.decode v = .ok (settings.setting t) := by
  obtain ⟨v, hv, hdecode⟩ := Config.exists_decode_of_load hfiles h t
  refine ⟨v, ?_, hdecode⟩
  cases config with
  | none => exact hv
  | some path =>
      rw [Option.elim_some, ← Config.Value.upon_assoc]
      exact hv

/-- The text of an input, which is that of a file or the standard input. -/
def textAt (name : String) : Except FileFault String :=
  if name = "-" then w.input else w.read s name

theorem reads_loadSettings (config : Option String) :
    Reads (loadSettings w.host config) s ((settingsAt w s config).mapError .configuration) := by
  -- All layers are looked up before the loader runs, and it asks for no other file.
  let look (layer : Config.FileLayer) := (layer.path, w.sourceFile? s layer.path)
  have hbuild : ((loader config).build (fun path =>
      (((loader config).files.map look).lookup path).join) w.host.order) =
        settingsAt w s config := by
    rw [settingsAt, ← build_loader]
    exact build_congr fun layer h => by rw [lookup_map_path h, Option.join_some]
  rw [loadSettings]
  refine Reads.bind_ok (.mapM (g := look) ?_ _) ?_
  · exact fun layer => (Reads.lift rfl).bind_ok (.pure s _)
  · simp only [hbuild]
    cases settingsAt w s config with
    | ok settings => exact .pure s settings
    | error e => exact .throw s _

theorem reads_readInput (name : String) :
    Reads (readInput w.host name) s ((textAt w s name).mapError (.unreadable name)) := by
  rw [readInput, textAt, standardInput]
  split
  · refine Reads.bind_ok (a := w.input) (.lift rfl) ?_
    cases w.input with
    | ok text => exact .pure s text
    | error fault => exact .throw s _
  · refine Reads.bind_ok (a := w.read s name) (.lift rfl) ?_
    cases w.read s name with
    | ok text => exact .pure s text
    | error fault => exact .throw s _

theorem reads_readDocument_of_error {name : String} {fault : FileFault}
    (h : textAt w s name = .error fault) :
    Reads (readDocument w.host name) s (.error (.unreadable name fault)) := by
  have hinput := reads_readInput w s name
  rw [h] at hinput
  exact hinput.bind_error

theorem reads_readDocument_of_ok {name text : String} (h : textAt w s name = .ok text) :
    Reads (readDocument w.host name) s ((Node.parse text).mapError .conversion) := by
  have hinput := reads_readInput w s name
  rw [h] at hinput
  refine hinput.bind_ok ?_
  cases Node.parse text with
  | ok n => exact .pure s n
  | error e => exact .throw s _

end Steps

end DocTree.Program
