import DocTree.Files

/-!
What the program needs from the place where it runs, and a file tree with a text to read as such a
place.
-/

namespace DocTree.Program

/-- Operations on files and the standard input, and the order in which configurations are gone
through. -/
structure Host (m : Type → Type) where
  order : Config.Order := .asWritten
  sourceFile? : String → m (Option Config.SourceFile)
  readFile : String → m (Except FileFault String)
  readInput : m (Except FileFault String)
  writeFile : String → String → m (Except FileFault Unit)

/-- Files that are read and written, and a standard input that is always the same. -/
def Host.ofFiles (input : Except FileFault String) : Host (StateM Files) where
  sourceFile? path := return (← get).sourceFile? path
  readFile path := return (← get).read path
  readInput := return input
  writeFile path text := do
    match (← get).write path text with
    | .ok files =>
      set files
      return .ok ()
    | .error fault => return .error fault

end DocTree.Program
