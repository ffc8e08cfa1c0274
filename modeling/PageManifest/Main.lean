import PageManifest.Command.Program
import PageManifest.Platform.Bundled

/-!
# The command line

The program on a real machine: files are those of the file system, output goes to the
terminal as it is said, and log records go to the error output.
-/

namespace PageManifest

/-- How output and log records are shown at the moment. -/
structure Screen where
  console : Terminal.Console
  logging : Option Log.Setup

/-- The number and the wording that a failed system call gives as its reason. -/
def systemReason : IO.Error → Nat × String
  | .alreadyExists _ code details => (code.toNat, details)
  | .otherError code details => (code.toNat, details)
  | .resourceBusy code details => (code.toNat, details)
  | .resourceVanished code details => (code.toNat, details)
  | .unsupportedOperation code details => (code.toNat, details)
  | .hardwareFault code details => (code.toNat, details)
  | .unsatisfiedConstraints code details => (code.toNat, details)
  | .illegalOperation code details => (code.toNat, details)
  | .protocolError code details => (code.toNat, details)
  | .timeExpired code details => (code.toNat, details)
  | .interrupted _ code details => (code.toNat, details)
  | .noFileOrDirectory _ code details => (code.toNat, details)
  | .invalidArgument _ code details => (code.toNat, details)
  | .permissionDenied _ code details => (code.toNat, details)
  | .resourceExhausted _ code details => (code.toNat, details)
  | .inappropriateType _ code details => (code.toNat, details)
  | .noSuchThing _ code details => (code.toNat, details)
  | .unexpectedEof => (5, "unexpected end of file")
  | .userError details => (5, details)

/-- The causes that have a wording of their own. -/
def knownCauses : List OsFault.Cause :=
  [.noEntry, .busy, .alreadyThere, .notDirectory, .isDirectory, .nameTooLong]

/--
The number and the wording of the reason for a fault.  Some calls give the number with
its sign turned round.
-/
def reasonOf (e : IO.Error) : Nat × String :=
  let (given, details) := systemReason e
  let code := if given < 0x80000000 then given else 0x100000000 - given
  match knownCauses.find? (·.code = code) with
  | some cause => (code, cause.reason)
  | none => (code, details)

/-- Asks the file system, for paths that hold no NUL. -/
def askSystem {α : Type} (paths : List Path) (ask : IO α) :
    StateT Screen IO (Except PathFault α) := do
  if paths.any Path.hasNul then pure (.error .nul)
  else
    match ← ask.toBaseIO with
    | .ok a => pure (.ok a)
    | .error e =>
        let (code, reason) := reasonOf e
        let names := paths.map Path.toString
        pure (.error (.os ⟨code, reason, names[0]?, names[1]?⟩))

/-- The content of a file of the file system. -/
def systemRead (path : String) : IO ByteArray := do
  let handle ← IO.FS.Handle.mk path .read
  handle.readBinToEnd

/-- What a path leads to on the file system. -/
def systemStatus (path : String) : IO Status := do
  match ← (systemRead path).toBaseIO with
  | .ok content => pure (.file content.size)
  | .error e =>
      if (reasonOf e).1 = OsFault.Cause.isDirectory.code then pure .directory else throw e

/-- Creates a new file on the file system. -/
def systemCreate (path : String) : IO Unit := do
  let _ ← IO.FS.Handle.mk path .writeNew

/-- Writes the content of a file of the file system. -/
def systemWrite (path : String) (content : Bytes) : IO Unit := do
  let handle ← IO.FS.Handle.mk path .write
  handle.write ⟨content.toArray⟩

/-- The characters that names of temporary files are drawn from. -/
def freshLetters : Text :=
  "abcdefghijklmnopqrstuvwxyz0123456789_".toList

/-- How many names are drawn for a temporary file. -/
def freshCount : Nat := 100

/-- A name of letters picked at random. -/
def systemName : IO (Option FreshName) := do
  let picked ← (List.range 8).mapM fun _ => do
    let n ← IO.rand 0 (freshLetters.length - 1)
    pure (freshLetters.getD n '_')
  let text := String.ofList picked
  if h : text.toList.length = 8 ∧ text.toList.all isDrawn = true then pure (some ⟨text, h.1, h.2⟩)
  else pure none

instance : Host (StateT Screen IO) where
  workingDirectory := do
    let directory ← IO.currentDir
    pure (Path.ofString directory.toString)
  readFile path := askSystem [path] (do
    let content ← systemRead path.toString
    pure content.toList)
  status path := askSystem [path] (systemStatus path.toString)
  createFile path := askSystem [path] (systemCreate path.toString)
  writeFile path content := askSystem [path] (systemWrite path.toString content)
  rename source target := askSystem [source, target] (IO.FS.rename source.toString target.toString)
  removeFile path := askSystem [path] (IO.FS.removeFile path.toString)
  freshNames := do
    let names ← (List.range freshCount).mapM fun _ => systemName
    pure (names.filterMap id)
  note record := do
    match (← get).logging with
    | some setup => IO.eprint (String.ofList (setup.written record))
    | none => pure ()
  present console logging := set (Screen.mk console logging)
  say message := do
    IO.print (String.ofList ((← get).console.written message))

attribute [local instance] Platform.bundled in
/-- Runs the program on a command line, and gives the number by which it ends. -/
def runOnSystem (words : List String) : IO UInt32 := do
  let level ← IO.getEnv "PROVMARK_LOG_LEVEL"
  let action : StateT Screen IO Command.Ending :=
    Command.run "provmark" words (level.map String.toList)
  let (ending, _) ← action.run ⟨.standard, none⟩
  match ending with
  | .failed failure => IO.eprintln failure.message
  | ending => IO.eprint (String.ofList ending.complaint)
  pure ending.code.toUInt32

end PageManifest

/-- The entry point of the program. -/
def main (words : List String) : IO UInt32 :=
  PageManifest.runOnSystem words
