import PageManifest.Config.Basic
import PageManifest.Files
import PageManifest.Toml.Document

/-!
# Configuration files

A configuration file is named, or it is the nearest one at or above the working
directory.  In each directory the file of the program comes before that of the
project, which counts only with a table for the program.
-/

namespace PageManifest.Config

/-- The configuration file of the program. -/
def ownFile : String :=
  "provmark.toml"

/-- The configuration file of a project, for any number of programs. -/
def projectFile : String :=
  "pyproject.toml"

/-- The value of a key whose value is a table. -/
def tableAt? (entries : Toml.Entries) (key : String) : Option Toml.Entries :=
  match entries.lookup key.toList with
  | some (.table _ inner) => some inner
  | _ => none

/-- The table that a document has for the program; in a project file it lies below others. -/
def tableIn? (document : Toml.Entries) (path : Path) : Except Failure (Option Toml.Entries) :=
  let outer :=
    if path.name = projectFile then (tableAt? document "tool").getD [] else document
  match outer.lookup tableName.toList with
  | none => .ok none
  | some (.table _ entries) => .ok (some entries)
  | some _ => .error (.configNoTable path)

/-- Line breaks of all kinds as line feeds. -/
def withLineFeeds : Text → Text
  | [] => []
  | '\r' :: '\n' :: t => '\n' :: withLineFeeds t
  | '\r' :: t => '\n' :: withLineFeeds t
  | c :: t => c :: withLineFeeds t

variable {m : Type → Type} [Monad m] [Host m]

def readDocument (path : Path) : Run m Toml.Entries := do
  let content ← tryCatch (Files.read path) fun failure => match failure with
    | .os fault => throw (.configUnreadable path fault)
    | failure => throw failure
  let t ← Files.value (((Charset.codec .utf8).decode content).mapError .charset)
  match Toml.read (withLineFeeds t) with
  | .ok entries => pure entries
  | .error .malformed => throw (.configMalformed path)
  | .error (.keyTwice key) => throw (.configKeyTwice (String.ofList key))
  | .error .tableTwice => throw .configTableTwice

/-- The configuration file of one directory, if it has any. -/
def fileIn? (directory : Path) : Run m (Option Path) := do
  let own := directory.child ownFile
  if ← Files.isFile own then pure (some own)
  else do
    let project := directory.child projectFile
    if ← Files.isFile project then
      match ← Files.value (tableIn? (← readDocument project) project) with
      | some (_ :: _) => pure (some project)
      | _ => pure none
    else pure none

/-- The first configuration file of some directories. -/
def firstIn? : List Path → Run m (Option Path)
  | [] => pure none
  | directory :: rest => do
      match ← fileIn? directory with
      | some path => pure (some path)
      | none => firstIn? rest

/-- The nearest configuration file at or above a directory. -/
def discover? (start : Option Path) : Run m (Option Path) := do
  let here ← ExceptT.lift Host.workingDirectory
  let start := (start.getD here).absolute here
  if start.hasNul then throw .nulInPath
  else firstIn? (start :: start.parents)

/--
The configuration in effect: the standard one, with the table of a file laid over
it, and single settings over that.  Without a named file one is looked for, if
`search` says so.
-/
def load (path start : Option Path) (search : Bool) (strategy encoding : Option String) :
    Run m Config := do
  let path ← match path with
    | some path => pure (some path)
    | none => if search then discover? start else pure none
  let base ← match path with
    | none => pure standard
    | some path => do
        if ← Files.isFile path then
          match ← Files.value (tableIn? (← readDocument path) path) with
          | none => do
              Files.noteAll [Log.Record.info "provmark.config.model"
                ("No [" ++ tableName ++ "] table in " ++ path.toString ++ "; using defaults")]
              pure standard
          | some entries => do
              Files.noteAll (notices entries (some path))
              Files.value (standard.withEntries entries (some path))
        else throw (.configMissing path)
  Files.value (base.withSettings strategy encoding)

end PageManifest.Config
