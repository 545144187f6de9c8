import DocTree.Program.Run

/-!
The program as it runs on a machine.
-/

open DocTree DocTree.Program

/-- The fault that an error tells. A file in the place of a directory has the number 20, which some
operations give negated. -/
def faultOf : IO.Error → FileFault
  | .noFileOrDirectory .. => .missing
  | .inappropriateType _ code _ =>
    if code = 20 || code = 0 - 20 then .notDirectory else .isDirectory
  | .permissionDenied .. => .other "Permission denied (os error 13)"
  | e => .other (toString e)

def textOf (bytes : ByteArray) : Except FileFault String :=
  match String.fromUTF8? bytes with
  | some text => .ok text
  | none => .error .notText

def readFileText (path : String) : IO (Except FileFault String) := do
  match ← (IO.FS.readBinFile path).toBaseIO with
  | .ok bytes => return textOf bytes
  | .error e => return .error (faultOf e)

partial def readAll (stream : IO.FS.Stream) (bytes : ByteArray) : IO ByteArray := do
  let more ← stream.read 65536
  if more.isEmpty then return bytes else readAll stream (bytes ++ more)

/-- A layer that is not UTF-8 is there, but has no good text. -/
def findSourceFile (path : String) : IO (Option Config.SourceFile) := do
  let attempt (p : Path) (spelled : String) : IO (Option Config.SourceFile) := do
    match ← readFileText spelled with
    | .ok text => return some ⟨p.text, text⟩
    | .error .notText => return some ⟨p.text, "\uFFFD"⟩
    | .error _ => return none
  match Path.read? path with
  | none => return none
  | some p =>
    match ← attempt p.trim path with
    | some file => return some file
    | none =>
      match p.trim.extend? ".toml" with
      | some q => attempt q q.text
      | none => return none

def machine : Host IO where
  sourceFile? := findSourceFile
  readFile := readFileText
  readInput := do return textOf (← readAll (← IO.getStdin) .empty)
  writeFile path text := do
    match ← (IO.FS.writeFile path text).toBaseIO with
    | .ok _ => return .ok ()
    | .error e => return .error (faultOf e)

def logLine (r : LogRecord) : String :=
  " ".intercalate (r.level.name :: r.fields.map fun (key, value) =>
    if key = "message" then value else key ++ "=" ++ value)

def main (args : List String) : IO UInt32 := do
  let outcome ← run machine (← IO.getEnv "RUST_LOG") ("adoc-json" :: args)
  for r in outcome.logs do
    IO.eprintln (logLine r)
  for line in outcome.stderr do
    IO.eprintln line
  IO.print outcome.stdout
  return UInt32.ofNat outcome.code
