import PageManifest.Files
import PageManifest.Sidecar.Reference

/-!
# Companion files

The companion file holds the manifest, and the document a reference to it.  Writing
goes by the name of the document, reading and removing by the reference.
-/

namespace PageManifest.Sidecar

variable {m : Type → Type} [Monad m] [Host m]

/-- A text decoded as a step of an operation. -/
def decoded (charset : Charset) (content : Bytes) : Run m Text :=
  Files.value ((charset.decode content).mapError .charset)

/-- A text encoded as a step of an operation. -/
def encoded (charset : Charset) (t : Text) : Run m Bytes :=
  Files.value ((charset.encode t).mapError .charset)

/-- Writes the companion file of a document. -/
def writeCompanion (tempPrefix : String) (document : Path) (payload : Bytes) : Run m Path := do
  let target ← Files.value (companion document)
  let size ← Files.replace tempPrefix target payload
  Files.noteAll [Log.Record.info "provmark.embedding.sidecar"
    ("sidecar: wrote " ++ toString size ++ " bytes to " ++ target.toString)]
  pure target

/--
Writes the companion file of a document, and then the reference to it into the
document, unless that is there already.
-/
def write (charset : Charset) (tempPrefix : String) (document : Path) (payload : Bytes) :
    Run m Path := do
  let t ← decoded charset (← Files.read document)
  let target ← writeCompanion tempPrefix document payload
  let updated := insertReference t target.name.toList
  Files.noteAll (insertNotices t)
  if updated ≠ t then
    let _ ← Files.replace tempPrefix document (← encoded charset updated)
  pure target

/-- The content of the companion file that a document refers to; it has to have some. -/
def read (charset : Charset) (t : Text) (base : Path) : Run m Bytes := do
  Files.noteAll (ReferenceScan.notices t)
  let path ← Files.value (locate charset t base)
  let content ← tryCatch (Files.read path) fun failure => match failure with
    | .os fault => throw (.companionUnreadable path fault)
    | failure => throw failure
  if content.isEmpty then throw (.companionEmpty path) else pure content

/-- The companion file that a document refers to, none if it has no usable reference. -/
def located (charset : Charset) (t : Text) (base : Path) : Run m (Option Path) := do
  Files.noteAll (ReferenceScan.notices t)
  match locate charset t base with
  | .ok path => pure (some path)
  | .error failure => if failure.category = .manifestMissing then pure none else throw failure

/-- Deletes the companion file that a document refers to, and tells whether there was one. -/
def remove (charset : Charset) (t : Text) (base : Path) : Run m Bool := do
  match ← located charset t base with
  | some path => Files.remove path
  | none => pure false

/-- A companion file is excluded from the hash of its document as a whole. -/
def hashRegions (charset : Charset) (t : Text) (base : Path) : Run m (List Region) := do
  Files.noteAll (ReferenceScan.notices t)
  let path ← Files.value (locate charset t base)
  match ← Files.size? path with
  | some size => pure [⟨0, size, .excluded⟩]
  | none => throw (.companionMissing path)

end PageManifest.Sidecar
