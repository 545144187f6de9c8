import DocTree.Proofs.Except
import DocTree.Proofs.Program.Reading
import DocTree.Proofs.Registry

/-!
Runs that convert a document or collect its attributes. The reasons to fail are met in a fixed
order, and a run that fails leaves nothing behind. Every other run delivers one text, to one place.
-/

namespace DocTree.Program

open CommandLine (Invocation Request)
open Config (ConfigError Settings)

section Commands

variable {settings : Settings} {r : Request} {n : Node} {text : String}

/-- What the settings or the command line switch on. -/
def optionsOf (settings : Settings) (r : Request) : Options where
  flat := settings.convert.mdast.flat || r.flat
  noAsciiDocData := settings.convert.mdast.noAsciiDocData || r.noAsciiDocData

/-- Whether a result takes several lines. -/
def isIndented (settings : Settings) (r : Request) : Bool :=
  settings.convert.pretty && !r.compact

/-- The backends that a command knows. -/
def backends (settings : Settings) (r : Request) : Registry := .withDefaults (optionsOf settings r)

/-- The name of the backend that a command converts with, if it converts. -/
def backendName (settings : Settings) (r : Request) : String :=
  r.backend.getD settings.convert.backend

/-- The backend that is asked for is there, if the command has any use for it. -/
def BackendKnown (settings : Settings) (r : Request) : Prop :=
  r.command = .convert → (backends settings r).has (backendName settings r) = true

/-- A record as it is told. Only the id may be missing. -/
def recordTree (record : AttributeRecord) : Json :=
  .obj ([("ordinal", .ofNat (UInt64.ofNat record.ordinal)), ("nodeName", .str record.nodeName)] ++
    record.id.elim [] (fun id => [("id", .str id)]) ++ [("attributes", .obj record.attributes)])

/-- What a command makes of a document: its text in the format of the backend, or the list of the
records of an Mdast conversion, whatever the backend is. -/
inductive Renders (settings : Settings) (r : Request) (n : Node) : String → Prop where
  | convert {text : String} (hcommand : r.command = .convert)
      (htext : (backends settings r).serialize n (backendName settings r)
        (isIndented settings r) = .ok text) : Renders settings r n text
  | data {records : Json} (hcommand : r.command = .data)
      (hrecords : records =
        .arr ((Mdast.conversion (optionsOf settings r) n).data.map recordTree)) :
      Renders settings r n (if isIndented settings r then records.pretty else records.compact)

theorem serialize_of_get {registry : Registry} {key : String} {b : Backend}
    (h : registry.get key = .ok b) (n : Node) (indent : Bool) :
    registry.serialize n key indent = .ok (b.serialize n indent) := by
  rw [Registry.serialize, h]
  rfl

theorem toJson_eq_recordTree (record : AttributeRecord) : record.toJson = recordTree record := by
  rw [AttributeRecord.toJson, recordTree]
  cases record.id <;> rfl

theorem Renders.backendKnown (h : Renders settings r n text) : BackendKnown settings r := by
  intro hconvert
  cases h with
  | convert _ htext =>
      obtain ⟨b, hb, -⟩ := bind_eq_ok_iff.mp htext
      exact Registry.has_iff.mpr ⟨b, hb⟩
  | data hdata _ => exact absurd (hconvert.symm.trans hdata) nofun

theorem renders_iff_of_convert {b : Backend} (hcommand : r.command = .convert)
    (hb : (backends settings r).get (backendName settings r) = .ok b) :
    Renders settings r n text ↔ b.serialize n (isIndented settings r) = text := by
  have hserialize := serialize_of_get hb n (isIndented settings r)
  constructor
  · intro h
    cases h with
    | convert _ htext => exact Except.ok.inj (hserialize.symm.trans htext)
    | data hdata _ => exact absurd (hcommand.symm.trans hdata) nofun
  · rintro rfl
    exact .convert hcommand hserialize

theorem renders_iff_of_data (hcommand : r.command = .data) :
    Renders settings r n text ↔
      recordsText (Mdast.conversion (optionsOf settings r) n).data (isIndented settings r) =
        text := by
  have htree (records : List AttributeRecord) :
      Json.arr (records.map AttributeRecord.toJson) = .arr (records.map recordTree) :=
    congrArg Json.arr (List.map_congr_left fun record _ => toJson_eq_recordTree record)
  rw [recordsText, htree]
  constructor
  · intro h
    cases h with
    | convert hconvert _ => exact absurd (hcommand.symm.trans hconvert) nofun
    | data _ hrecords => rw [hrecords]
  · rintro rfl
    exact .data hcommand rfl

/-- A command whose backend is known reads its document, and makes its answer from that alone. -/
theorem exists_answer (hknown : BackendKnown settings r) :
    ∃ f : Node → Answer,
      (∀ {m : Type → Type} [Monad m] (host : Host m),
        answer host settings r = do return f (← readDocument host r.input)) ∧
      ∀ n text, Renders settings r n text ↔ (f n).text = text := by
  cases hcommand : r.command with
  | convert =>
      obtain ⟨b, hb⟩ := Registry.has_iff.mp (hknown hcommand)
      refine ⟨fun n => ⟨b.serialize n (isIndented settings r), b.trace n⟩, ?_, ?_⟩
      · intro m _ host
        have hget : (Registry.withDefaults (r.options settings.convert.mdast)).get
            (r.backend.getD settings.convert.backend) = .ok b := hb
        simp only [answer, hcommand, convert, hget]
        rfl
      · exact fun n text => renders_iff_of_convert hcommand hb
  | data =>
      have hanswer {m : Type → Type} [Monad m] (host : Host m) :
          answer host settings r = collect host settings r := by
        rw [answer, hcommand]
      exact ⟨_, hanswer, fun n text => renders_iff_of_data hcommand⟩

end Commands

section Answers

variable {σ : Type} {w : World σ} {s : σ} {settings : Settings} {r : Request} {failure : Failure}
  {text : String}

/-- Why a command has no result. Each reason counts only where those before it do not. -/
inductive Obstacle (w : World σ) (s : σ) (settings : Settings) (r : Request) : Failure → Prop where
  | backend (hcommand : r.command = .convert)
      (habsent : (backends settings r).has (backendName settings r) = false) :
      Obstacle w s settings r (.conversion (.backendNotFound (backendName settings r)))
  | unreadable {fault : FileFault} (hknown : BackendKnown settings r)
      (hinput : textAt w s r.input = .error fault) :
      Obstacle w s settings r (.unreadable r.input fault)
  | invalid {source : String} {e : ConvertError} (hknown : BackendKnown settings r)
      (hinput : textAt w s r.input = .ok source) (hparse : Node.parse source = .error e) :
      Obstacle w s settings r (.conversion e)

/-- The result of a command is what it makes of the document that it reads. -/
inductive Result (w : World σ) (s : σ) (settings : Settings) (r : Request) (text : String) :
    Prop where
  | intro {source : String} {n : Node} (hinput : textAt w s r.input = .ok source)
      (hparse : Node.parse source = .ok n) (htext : Renders settings r n text)

theorem obstacle_or_result (w : World σ) (s : σ) (settings : Settings) (r : Request) :
    (∃ failure, Obstacle w s settings r failure) ∨ ∃ text, Result w s settings r text := by
  by_cases hknown : BackendKnown settings r
  · obtain ⟨f, -, hf⟩ := exists_answer hknown
    cases hinput : textAt w s r.input with
    | error fault => exact .inl ⟨_, .unreadable hknown hinput⟩
    | ok source =>
        cases hparse : Node.parse source with
        | error e => exact .inl ⟨_, .invalid hknown hinput hparse⟩
        | ok n => exact .inr ⟨_, hinput, hparse, (hf n _).mpr rfl⟩
  · obtain ⟨hcommand, habsent⟩ := Classical.not_imp.mp hknown
    exact .inl ⟨_, .backend hcommand (Bool.eq_false_of_not_eq_true habsent)⟩

theorem Obstacle.reads (h : Obstacle w s settings r failure) :
    Reads (answer w.host settings r) s (.error failure) := by
  cases h with
  | backend hcommand habsent =>
      have hget : (Registry.withDefaults (r.options settings.convert.mdast)).get
          (r.backend.getD settings.convert.backend) = .error _ :=
        Registry.has_eq_false_iff.mp habsent
      simp only [answer, hcommand, convert, hget]
      exact .throw s _
  | unreadable hknown hinput =>
      obtain ⟨f, hf, -⟩ := exists_answer hknown
      rw [hf]
      exact (reads_readDocument_of_error w s hinput).bind_error
  | invalid hknown hinput hparse =>
      obtain ⟨f, hf, -⟩ := exists_answer hknown
      have hread := reads_readDocument_of_ok w s hinput
      rw [hparse] at hread
      rw [hf]
      exact hread.bind_error

theorem Result.reads (h : Result w s settings r text) :
    ∃ logs, Reads (answer w.host settings r) s (.ok ⟨text, logs⟩) := by
  cases h with
  | @intro source n hinput hparse htext =>
      obtain ⟨f, hf, hanswer⟩ := exists_answer htext.backendKnown
      obtain rfl := (hanswer n text).mp htext
      have hread := reads_readDocument_of_ok w s hinput
      rw [hparse] at hread
      refine ⟨(f n).logs, ?_⟩
      rw [hf]
      exact hread.bind_ok (.pure s (f n))

end Answers

/-- A line asks for a command, rather than for the list of backends or for nothing. -/
structure Asks (line : List String) (i : Invocation) (r : Request) : Prop where
  line : CommandLine.readImplied line = .ok i
  noListing : i.listBackends = false
  request : i.request = some r

section Runs

variable {σ α : Type} {w : World σ} {s between after : σ} {settings : Settings} {r : Request}
  {i : Invocation} {failure : Option Failure} {stdout text path : String} {line : List String}

/-- A computation comes to a value and prints nothing. -/
def IsSilent (x : Printing (StateM σ) α) (s : σ) (a : α) (after : σ) : Prop :=
  ∀ printed, (x.run printed).run s = ((a, printed), after)

/-- What a computation comes to that has printed nothing before: a report, which tells of a failure
or of none, the texts that it prints, and the files that it leaves. -/
def Ends (x : Printing (StateM σ) Report) (s : σ) (failure : Option Failure) (stdout : String)
    (after : σ) : Prop :=
  ∃ report, (x.run "").run s = ((report, stdout), after) ∧ report.failure = failure

theorem IsSilent.of_reads {x : ExceptT Failure (StateM σ) α} {result : Except Failure α}
    (h : Reads x s result) : IsSilent (liftM x.run : Printing (StateM σ) _) s result s := by
  intro printed
  change ((((x.run).run s).1, printed), ((x.run).run s).2) = _
  rw [show x.run.run s = (result, s) from h]

theorem IsSilent.bind {x : Printing (StateM σ) α} {f : α → Printing (StateM σ) Report} {a : α}
    (h : IsSilent x s a between) (hf : Ends (f a) between failure stdout after) :
    Ends (x >>= f) s failure stdout after := by
  obtain ⟨report, hrun, hfailure⟩ := hf
  refine ⟨report, ?_, hfailure⟩
  change ((f ((x.run "").run s).1.1).run ((x.run "").run s).1.2).run ((x.run "").run s).2 = _
  rw [h]
  exact hrun

/-- A report may be completed with what is for the standard error. -/
theorem Ends.map {x : Printing (StateM σ) Report} {f : Report → Report}
    (h : Ends x s failure stdout after) (hf : ∀ report, (f report).failure = report.failure) :
    Ends (do return f (← x)) s failure stdout after := by
  obtain ⟨report, hrun, hfailure⟩ := h
  refine ⟨f report, ?_, (hf report).trans hfailure⟩
  change ((f ((x.run "").run s).1.1, ((x.run "").run s).1.2), ((x.run "").run s).2) = _
  rw [hrun]

theorem Ends.of_failure (failure : Failure) (s : σ) :
    Ends (return { failure := some failure }) s (some failure) "" s :=
  ⟨_, rfl, rfl⟩

theorem Obstacle.ends {failure : Failure} (h : Obstacle w s settings r failure) :
    Ends (carryOut w.host settings r) s (some failure) "" s := by
  rw [carryOut]
  exact (IsSilent.of_reads h.reads).bind (.of_failure failure s)

theorem Result.ends_of_print (h : Result w s settings r text) (houtput : r.output = none) :
    Ends (carryOut w.host settings r) s none (text ++ "\n") s := by
  obtain ⟨logs, hanswer⟩ := h.reads
  rw [carryOut, houtput]
  have hprinted : "" ++ (text ++ "\n") = text ++ "\n" := String.empty_append
  rw [← hprinted]
  exact (IsSilent.of_reads hanswer).bind ⟨{ logs }, rfl, rfl⟩

theorem Result.ends_of_write (h : Result w s settings r text) (houtput : r.output = some path)
    (hwrite : w.write s path (text ++ "\n") = .ok after) :
    Ends (carryOut w.host settings r) s none "" after := by
  obtain ⟨logs, hanswer⟩ := h.reads
  have hdeliver : IsSilent (deliver w.host (some path) text) s none after := by
    intro printed
    simp only [deliver, World.host, bind, StateT.bind, get, getThe, MonadStateOf.get, StateT.get,
      pure, StateT.run, liftM, monadLift, MonadLift.monadLift, StateT.lift, hwrite]
    rfl
  rw [carryOut, houtput]
  exact (IsSilent.of_reads hanswer).bind (hdeliver.bind ⟨_, rfl, rfl⟩)

theorem follow_ends_of_error {e : ConfigError} (hline : CommandLine.readImplied line = .ok i)
    (h : settingsAt w s i.config = .error e) :
    Ends (follow w.host w.filter line) s (some (.configuration e)) "" s := by
  have hsettings := reads_loadSettings w s i.config
  rw [h] at hsettings
  rw [follow, hline]
  exact (IsSilent.of_reads hsettings).bind (.of_failure _ s)

theorem follow_ends (hasks : Asks line i r) (h : settingsAt w s i.config = .ok settings)
    (hends : Ends (carryOut w.host settings r) s failure stdout after) :
    Ends (follow w.host w.filter line) s failure stdout after := by
  have hsettings := reads_loadSettings w s i.config
  rw [h] at hsettings
  have hdispatch : dispatch w.host settings i = carryOut w.host settings r := by
    rw [dispatch, hasks.noListing, hasks.request]
    rfl
  rw [← hdispatch] at hends
  rw [follow, hasks.line]
  exact (IsSilent.of_reads hsettings).bind (hends.map fun _ => rfl)

end Runs

section Endings

variable {σ : Type} {w : World σ} {s after : σ} {config : Option String} {r : Request}
  {i : Invocation} {failure : Failure} {text path : String} {line : List String}

/-- How a run ends, and what it leaves. -/
def ending (w : World σ) (line : List String) (s : σ) : Outcome × σ :=
  (run w.host w.filter line).run s

/-- Why a run has no result: it has no settings, or its command has no result with them. -/
inductive Blocked (w : World σ) (s : σ) (config : Option String) (r : Request) :
    Failure → Prop where
  | configuration {e : ConfigError} (hsettings : settingsAt w s config = .error e) :
      Blocked w s config r (.configuration e)
  | command {settings : Settings} {failure : Failure}
      (hsettings : settingsAt w s config = .ok settings)
      (h : Obstacle w s settings r failure) : Blocked w s config r failure

/-- The result of a run is that of its command. -/
inductive Gives (w : World σ) (s : σ) (config : Option String) (r : Request) (text : String) :
    Prop where
  | intro {settings : Settings} (hsettings : settingsAt w s config = .ok settings)
      (h : Result w s settings r text)

/-- A run fails with a status and no output, and no file changes. -/
structure FailsCleanly (s : σ) (failure : Failure) (ending : Outcome × σ) : Prop where
  failure : ending.1.failure = some failure
  code : ending.1.code = 1
  stdout : ending.1.stdout = ""
  unchanged : ending.2 = s

/-- The text and a line end go to the standard output, and no file changes. -/
structure PrintsOnly (s : σ) (text : String) (ending : Outcome × σ) : Prop where
  code : ending.1.code = 0
  stdout : ending.1.stdout = text ++ "\n"
  unchanged : ending.2 = s

/-- The text and a line end are written to one path. They are in the file that the path leads to, if
it leads to one, and neither the standard output nor any other file has anything of them. -/
structure WritesOnly (w : World σ) (s : σ) (path text : String) (ending : Outcome × σ) : Prop where
  code : ending.1.code = 0
  stdout : ending.1.stdout = ""
  written : w.write s path (text ++ "\n") = .ok ending.2
  inFile : ∀ file, w.file? s path = some file → w.text? ending.2 file = some (text ++ "\n")
  readBack : ∀ file, w.file? s path = some file →
    ∀ found, w.read ending.2 path = .ok found → found = text ++ "\n"
  others : ∀ other, w.file? s path ≠ some other → w.text? ending.2 other = w.text? s other

theorem blocked_or_gives (w : World σ) (s : σ) (config : Option String) (r : Request) :
    (∃ failure, Blocked w s config r failure) ∨ ∃ text, Gives w s config r text := by
  cases hsettings : settingsAt w s config with
  | error e => exact .inl ⟨_, .configuration hsettings⟩
  | ok settings =>
      obtain ⟨failure, h⟩ | ⟨text, h⟩ := obstacle_or_result w s settings r
      · exact .inl ⟨failure, .command hsettings h⟩
      · exact .inr ⟨text, hsettings, h⟩

theorem Blocked.code (h : Blocked w s config r failure) : failure.code = 1 := by
  cases h with
  | configuration => rfl
  | command _ h => cases h <;> rfl

/-- A run ends as the command line it follows. -/
theorem Ends.ending {failure : Option Failure} {stdout : String}
    (h : Ends (follow w.host w.filter line) s failure stdout after) :
    (ending w line s).1.failure = failure ∧
      (ending w line s).1.code = failure.elim 0 Failure.code ∧
      (ending w line s).1.stdout = stdout ∧ (ending w line s).2 = after := by
  obtain ⟨report, hrun, rfl⟩ := h
  have hending : Program.ending w line s = ({ report with stdout }, after) := by
    change (({ (((follow w.host w.filter line).run "").run s).1.1 with
      stdout := (((follow w.host w.filter line).run "").run s).1.2 } : Outcome),
        (((follow w.host w.filter line).run "").run s).2) = _
    rw [hrun]
  rw [hending]
  exact ⟨rfl, rfl, rfl, rfl⟩

theorem Blocked.failsCleanly (h : Blocked w s i.config r failure) (hasks : Asks line i r) :
    FailsCleanly s failure (ending w line s) := by
  have hends : Ends (follow w.host w.filter line) s (some failure) "" s := by
    cases h with
    | configuration hsettings => exact follow_ends_of_error hasks.line hsettings
    | command hsettings h => exact follow_ends hasks hsettings h.ends
  obtain ⟨hfailure, hcode, hstdout, hafter⟩ := hends.ending
  exact ⟨hfailure, hcode.trans h.code, hstdout, hafter⟩

theorem Gives.printsOnly (h : Gives w s i.config r text) (hasks : Asks line i r)
    (houtput : r.output = none) : PrintsOnly s text (ending w line s) := by
  obtain ⟨hsettings, h⟩ := h
  obtain ⟨-, hcode, hstdout, hafter⟩ :=
    (follow_ends hasks hsettings (h.ends_of_print houtput)).ending
  exact ⟨hcode, hstdout, hafter⟩

theorem Gives.writesOnly (h : Gives w s i.config r text) (hasks : Asks line i r)
    (houtput : r.output = some path) (hwrite : w.write s path (text ++ "\n") = .ok after) :
    WritesOnly w s path text (ending w line s) := by
  obtain ⟨hsettings, h⟩ := h
  obtain ⟨-, hcode, hstdout, rfl⟩ :=
    (follow_ends hasks hsettings (h.ends_of_write houtput hwrite)).ending
  exact ⟨hcode, hstdout, hwrite, fun _ => w.text?_of_file? hwrite,
    fun _ hfile _ => w.read_of_file? hwrite hfile, fun _ => w.text?_of_write hwrite⟩

/-- A run that converts a document or collects its attributes is blocked or has a result. When it is
blocked, it fails with the reason and changes nothing; its result goes to the one place where it is
wanted. -/
theorem run_of_request (w : World σ) (s : σ) (hasks : Asks line i r) :
    ((∃ failure, Blocked w s i.config r failure) ∨ ∃ text, Gives w s i.config r text) ∧
      (∀ failure, Blocked w s i.config r failure → FailsCleanly s failure (ending w line s)) ∧
      ∀ text, Gives w s i.config r text →
        (r.output = none → PrintsOnly s text (ending w line s)) ∧
        ∀ path after, r.output = some path → w.write s path (text ++ "\n") = .ok after →
          WritesOnly w s path text (ending w line s) := by
  refine ⟨blocked_or_gives w s i.config r, fun failure h => ?_, fun text h => ⟨?_, ?_⟩⟩
  · exact h.failsCleanly hasks
  · exact h.printsOnly hasks
  · exact fun path after => h.writesOnly hasks

/-- A document that is nothing but an image. -/
def image : Node := { props := { nodeName := "image", context := "image" } }

def imageSource : String := "\x7b\"nodeName\":\"image\",\"context\":\"image\"\x7d"

def imageText : String :=
  "\x7b\"name\":\"image\",\"context\":\"image\",\"attributes\":\x7b\x7d\x7d"

def imageRequest : Request where
  command := .convert
  input := standardInput
  backend := some "json"
  output := some "out.json"
  flat := false
  noAsciiDocData := false
  compact := true

/-- The text of an open block with a role. -/
def noteSource : String :=
  "\x7b\"nodeName\":\"open\",\"context\":\"open\",\"attributes\":\x7b\"role\":\"note\"\x7d\x7d"

def noteText : String :=
  "[\x7b\"ordinal\":0,\"nodeName\":\"open\",\"attributes\":\x7b\"role\":\"note\"\x7d\x7d]"

def noteRequest : Request where
  command := .data
  input := standardInput
  backend := none
  output := none
  flat := false
  noAsciiDocData := false
  compact := false

/-- A local file that names no backend, and one with another setting of the same group. -/
def configured : Files :=
  .ofList [("adoc-json.toml", "[convert]\nbackend = 'html'\npretty = true"),
    ("extra.toml", "convert.pretty = false")]

/-- Without any file, an image goes to the file that is named. With files, the records of a note are
told in one line, as the file wants it that is asked for, whatever backend the local file has; that
there is no such backend is told when it is needed, even when there is no good input. -/
theorem run_of_image :
    Asks ["adoc-json", "-", "--to", "json", "--compact", "-o", "out.json"]
        ⟨false, false, none, some imageRequest⟩ imageRequest ∧
      WritesOnly (.ofFiles (.ok imageSource)) {} "out.json" imageText
        (ending (.ofFiles (.ok imageSource))
          ["adoc-json", "-", "--to", "json", "--compact", "-o", "out.json"] {}) ∧
      Asks ["adoc-json", "--config", "extra.toml", "data", "-"]
        ⟨false, false, some "extra.toml", some noteRequest⟩ noteRequest ∧
      PrintsOnly configured noteText (ending (.ofFiles (.ok noteSource))
        ["adoc-json", "--config", "extra.toml", "data", "-"] configured) ∧
      Asks ["adoc-json", "--config=extra.toml", "-"]
        ⟨false, false, some "extra.toml", some { noteRequest with command := .convert }⟩
        { noteRequest with command := .convert } ∧
      FailsCleanly configured (.conversion (.backendNotFound "html"))
        (ending (.ofFiles (.error .notText)) ["adoc-json", "--config=extra.toml", "-"]
          configured) := by
  have hasks : Asks ["adoc-json", "-", "--to", "json", "--compact", "-o", "out.json"]
    ⟨false, false, none, some imageRequest⟩ imageRequest := ⟨rfl, rfl, rfl⟩
  have hasks' : Asks ["adoc-json", "--config", "extra.toml", "data", "-"]
    ⟨false, false, some "extra.toml", some noteRequest⟩ noteRequest := ⟨rfl, rfl, rfl⟩
  have hasks'' : Asks ["adoc-json", "--config=extra.toml", "-"]
    ⟨false, false, some "extra.toml", some { noteRequest with command := .convert }⟩
    { noteRequest with command := .convert } := ⟨rfl, rfl, rfl⟩
  have hlayered : Config.load .asWritten configured.sourceFile? (layers (some "extra.toml")) =
    .ok ⟨⟨"html", false, ⟨false, false⟩⟩, "warn"⟩ := toOption_eq_some_iff.mp (by decide +kernel)
  refine ⟨hasks, ?_, hasks', ?_, hasks'', ?_⟩
  · have hdefault : settingsAt (.ofFiles (.ok imageSource)) {} none =
      .ok ⟨⟨"mdast", true, ⟨false, false⟩⟩, "warn"⟩ := rfl
    have hparse : Node.parse imageSource = .ok image := rfl
    have htext : Backend.plain.serialize image false = imageText := by decide +kernel
    have hrenders : Renders ⟨⟨"mdast", true, ⟨false, false⟩⟩, "warn"⟩ imageRequest image
      imageText := .convert rfl ((serialize_of_get rfl image false).trans (congrArg _ htext))
    obtain ⟨-, -, hgives⟩ := run_of_request (.ofFiles (.ok imageSource)) {} hasks
    exact (hgives imageText ⟨hdefault, rfl, hparse, hrenders⟩).2 "out.json" _ rfl rfl
  · have hnote : (Node.parse noteSource).toOption.map (fun n =>
      (Json.arr ((Mdast.conversion {} n).data.map recordTree)).compact) = some noteText := by
        decide +kernel
    obtain ⟨note, hparse, htext⟩ := Option.map_eq_some_iff.mp hnote
    have hrenders : Renders ⟨⟨"html", false, ⟨false, false⟩⟩, "warn"⟩ noteRequest note
        noteText := by
      rw [← htext]
      exact .data rfl rfl
    obtain ⟨-, -, hgives⟩ := run_of_request (.ofFiles (.ok noteSource)) configured hasks'
    exact (hgives noteText ⟨hlayered, rfl, toOption_eq_some_iff.mp hparse, hrenders⟩).1 rfl
  · obtain ⟨-, hfails, -⟩ := run_of_request (.ofFiles (.error .notText)) configured hasks''
    exact hfails _ (.command hlayered (.backend rfl rfl))

end Endings

end DocTree.Program
