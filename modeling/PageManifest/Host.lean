import PageManifest.Log.Setup
import PageManifest.Path
import PageManifest.Terminal.Console

/-!
# The machine the library runs on

Operations on files are written against a small interface, so that the same code
runs on a real machine and on a directory tree held as a value.
-/

namespace PageManifest

/-- A failed file operation: the number and wording of the reason, and the files named. -/
structure OsFault where
  code : Nat
  reason : String
  file : Option String
  target : Option String
  deriving DecidableEq, Repr

namespace OsFault

/-- How messages show a failed file operation, given the texts of its parts. -/
def shown (code reason : String) (file target : Option String) : String :=
  let file := match file with
    | some name => ": " ++ name
    | none => ""
  let target := match target with
    | some name => " -> " ++ name
    | none => ""
  "[Errno " ++ code ++ "] " ++ reason ++ file ++ target

/-- How messages show a failed file operation. -/
def message (f : OsFault) : String :=
  shown (toString f.code) f.reason (f.file.map Text.quotedString)
    (f.target.map Text.quotedString)

/-- The reasons that a directory tree has for refusing an operation. -/
inductive Cause
  | noEntry
  | busy
  | alreadyThere
  | notDirectory
  | isDirectory
  | nameTooLong
  deriving DecidableEq, Repr

def Cause.code : Cause → Nat
  | noEntry => 2
  | busy => 16
  | alreadyThere => 17
  | notDirectory => 20
  | isDirectory => 21
  | nameTooLong => 36

def Cause.reason : Cause → String
  | noEntry => "No such file or directory"
  | busy => "Device or resource busy"
  | alreadyThere => "File exists"
  | notDirectory => "Not a directory"
  | isDirectory => "Is a directory"
  | nameTooLong => "File name too long"

def on (cause : Cause) (file : String) : OsFault :=
  ⟨cause.code, cause.reason, some file, none⟩

/-- A failure to move one file to another. -/
def onMove (cause : Cause) (file target : String) : OsFault :=
  ⟨cause.code, cause.reason, some file, some target⟩

/--
Failures that only say that there is nothing of the kind asked for: a missing
entry, a parent that is no directory, a bad descriptor, a loop of links.
-/
def isAbsence (f : OsFault) : Bool :=
  f.code == 2 || f.code == 20 || f.code == 9 || f.code == 40

end OsFault

/-- Why a path could not be used. -/
inductive PathFault
  | os (fault : OsFault)
  | nul
  deriving DecidableEq, Repr

/-- What a path leads to. -/
inductive Status
  | file (size : Nat)
  | directory
  deriving DecidableEq, Repr

/-- A character that names of temporary files are drawn from. -/
def isDrawn (c : Char) : Bool :=
  c.isAlphanum || c == '_'

/-- What is drawn for the name of a temporary file: eight letters, digits or underscores. -/
structure FreshName where
  text : String
  long : text.toList.length = 8
  drawn : text.toList.all isDrawn = true
  deriving DecidableEq, Repr

/--
What the library asks of its machine.  Output that is handed over counts as taken: a
screen that breaks off, or cannot show a character, is not told apart from one that does not.
-/
class Host (m : Type → Type) where
  /-- The directory that relative paths are seen from. -/
  workingDirectory : m Path
  /-- The content of a file. -/
  readFile : Path → m (Except PathFault Bytes)
  /-- What a path leads to. -/
  status : Path → m (Except PathFault Status)
  /-- Creates an empty file that must not exist yet. -/
  createFile : Path → m (Except PathFault Unit)
  /-- Writes the content of a file that is there. -/
  writeFile : Path → Bytes → m (Except PathFault Unit)
  /-- Moves a file over another. -/
  rename : Path → Path → m (Except PathFault Unit)
  /-- Deletes a file. -/
  removeFile : Path → m (Except PathFault Unit)
  /-- Names that no other file is likely to have, in the order in which they are tried. -/
  freshNames : m (List FreshName)
  /-- Takes down a log record. -/
  note : Log.Record → m Unit
  /-- Settles how output is shown, and with the second argument log records too. -/
  present : Terminal.Console → Option Log.Setup → m Unit
  /-- Takes program output. -/
  say : Terminal.Message → m Unit

end PageManifest
