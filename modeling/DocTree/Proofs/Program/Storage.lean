import DocTree.Program.Run
import DocTree.Proofs.Files

/-!
The surroundings of a program: the files that it finds where it runs, whatever they are kept in, and
what else it depends on. Reading changes nothing, and writing to a path changes no more than the one
file that the path leads to. A path may also lead to something that takes any text and is no file,
so only a file is said to have the text afterwards; it need not be one that can be read. A file tree
is such a storage.
-/

namespace DocTree.Program

/-- Files in states of a type, and how they are read and written by their paths. -/
structure Storage (σ : Type) where
  /-- What files are told apart by, under whatever paths they go. -/
  File : Type
  /-- The file that a path leads to, be it there or not. -/
  file? : σ → String → Option File
  text? : σ → File → Option String
  sourceFile? : σ → String → Option Config.SourceFile
  read : σ → String → Except FileFault String
  write : σ → String → String → Except FileFault σ
  text?_of_write {before after : σ} {path text : String}
    (h : write before path text = .ok after) {other : File}
    (hother : file? before path ≠ some other) : text? after other = text? before other
  text?_of_file? {before after : σ} {path text : String}
    (h : write before path text = .ok after) {file : File} (hfile : file? before path = some file) :
    text? after file = some text
  read_of_file? {before after : σ} {path text found : String}
    (h : write before path text = .ok after) {file : File} (hfile : file? before path = some file)
    (hfound : read after path = .ok found) : found = text

/-- A file tree as a storage, in which a file goes by the names that lead to it. -/
def Storage.ofFiles : Storage Files where
  File := List String
  file? := Files.file?
  text? := Files.text?
  sourceFile? := Files.sourceFile?
  read := Files.read
  write := Files.write
  text?_of_write h other hother := by
    obtain ⟨names, hnames, rfl, -⟩ := Files.write_eq_ok h
    exact Files.text?_put_of_ne fun hsame => hother (hsame ▸ hnames)
  text?_of_file? h file hfile := by
    obtain ⟨names, hnames, rfl, -⟩ := Files.write_eq_ok h
    cases hnames.symm.trans hfile
    exact Files.text?_put_self
  read_of_file? h _ _ hfound := by
    obtain ⟨_, -, -, hread⟩ := Files.write_eq_ok h
    exact Except.ok.inj (hfound.symm.trans hread)

/-- What a run of the program depends on but for its command line and the state of the files. -/
structure World (σ : Type) extends Storage σ where
  /-- The whole standard input. -/
  input : Except FileFault String
  /-- The log filter of the environment. -/
  filter : Option String := none
  order : Config.Order := .asWritten

def World.host {σ : Type} (w : World σ) : Host (StateM σ) where
  order := w.order
  sourceFile? path := return w.sourceFile? (← get) path
  readFile path := return w.read (← get) path
  readInput := return w.input
  writeFile path text := do
    match w.write (← get) path text with
    | .ok after =>
      set after
      return .ok ()
    | .error fault => return .error fault

def World.ofFiles (input : Except FileFault String) : World Files := { Storage.ofFiles with input }

theorem World.host_ofFiles (input : Except FileFault String) :
    (World.ofFiles input).host = Host.ofFiles input := by
  refine congrArg (Host.mk _ _ _ _) ?_
  funext path text files
  simp only [World.ofFiles, Storage.ofFiles, bind, StateT.bind, get, getThe, MonadStateOf.get,
    StateT.get, pure]
  cases Files.write files path text <;> rfl

end DocTree.Program
