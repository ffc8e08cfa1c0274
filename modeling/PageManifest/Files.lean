import PageManifest.Failure

/-!
# Working with files

Files are replaced as a whole: the new content goes to a temporary file beside the
old one, which then takes its place.  A replacement that fails leaves everything as
it was.
-/

namespace PageManifest.Files

variable {m : Type → Type} [Monad m] [Host m]

/-- An answer of the machine as a step of an operation, by what it means there. -/
def answerAs {α β : Type} (meaning : Except PathFault α → Except Failure β)
    (ask : m (Except PathFault α)) : Run m β :=
  ExceptT.mk (meaning <$> ask)

/-- An answer of the machine as a step of an operation. -/
def answer {α : Type} (ask : m (Except PathFault α)) : Run m α :=
  answerAs (fun r => r.mapError Failure.ofPath) ask

/-- A value that may have failed to be computed as a step of an operation. -/
def value {α : Type} (r : Except Failure α) : Run m α :=
  ExceptT.mk (pure r)

def noteAll (records : List Log.Record) : Run m Unit :=
  records.forM fun record => ExceptT.lift (Host.note record)

def read (path : Path) : Run m Bytes :=
  answer (Host.readFile path)

/-- What the status of a path tells of its presence. -/
def presence : Except PathFault Status → Except Failure (Option Status)
  | .ok status => .ok (some status)
  | .error .nul => .ok none
  | .error (.os fault) => if fault.isAbsence then .ok none else .error (.os fault)

/-- What a path leads to, if it leads anywhere. -/
def status? (path : Path) : Run m (Option Status) :=
  answerAs presence (Host.status path)

/-- The size of a file, if a path leads to one. -/
def size? (path : Path) : Run m (Option Nat) := do
  match ← status? path with
  | some (.file size) => pure (some size)
  | _ => pure none

def isFile (path : Path) : Run m Bool := do
  pure (← size? path).isSome

/-- Whether a temporary file was created; it was not if its name is taken. -/
def creation : Except PathFault Unit → Except Failure Bool
  | .ok () => .ok true
  | .error (.os fault) =>
      if fault.code = OsFault.Cause.alreadyThere.code then .ok false else .error (.os fault)
  | .error .nul => .error .nulInPath

/-- What is said when all names of temporary files are taken. -/
def namesTaken : OsFault :=
  ⟨OsFault.Cause.alreadyThere.code, "No usable temporary file name found", none, none⟩

/-- Creates an empty file at the first of some paths that is not taken. -/
def createFirst : List Path → Run m Path
  | [] => throw (.os namesTaken)
  | path :: rest => do
      if ← answerAs creation (Host.createFile path) then pure path else createFirst rest

/-- What became of a file to be deleted; a missing one is no failure. -/
def deletion {α : Type} (deleted missing : α) : Except PathFault Unit → Except Failure α
  | .ok () => .ok deleted
  | .error (.os fault) =>
      if fault.category = .fileMissing then .ok missing else .error (.os fault)
  | .error .nul => .error .nulInPath

/-- Deletes a file that may be missing. -/
def discard (path : Path) : Run m Unit :=
  answerAs (deletion () ()) (Host.removeFile path)

/--
Replaces a file.  The name of the temporary file is `tempPrefix` and a fresh name,
seen from the directory of the target.  Whatever fails once it is there, it is deleted;
if that fails too, this is the failure that is passed on.
-/
def replace (tempPrefix : String) (target : Path) (content : Bytes) : Run m Nat := do
  let directory := target.parent.absolute (← ExceptT.lift Host.workingDirectory)
  let names ← ExceptT.lift Host.freshNames
  let temporary ← createFirst (names.map fun name => directory.below (tempPrefix ++ name.text))
  let moved := temporary.tidy
  try
    answer (Host.writeFile moved content)
    let _ ← status? target
    answer (Host.rename moved target)
  catch failure =>
    discard moved
    throw failure
  pure content.length

/-- Deletes a file and tells whether there was one. -/
def remove (path : Path) : Run m Bool :=
  answerAs (deletion true false) (Host.removeFile path)

end PageManifest.Files
