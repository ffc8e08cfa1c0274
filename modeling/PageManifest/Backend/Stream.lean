import PageManifest.Backend.Basic
import PageManifest.Stream

/-!
# Backends on streams

A document can come as a stream, and its new version go to another.  The destination
is replaced last of all, so an operation that fails leaves it alone.  Companion files
are files all the same.
-/

namespace PageManifest

/-- The streams of an operation: where a document comes from, and where it goes to. -/
structure Streams where
  source : OctetStream
  destination : OctetStream
  deriving DecidableEq, Repr

/-- An operation on streams and on a machine. -/
abbrev OnStreams (m : Type → Type) (α : Type) := ExceptT Failure (StateT Streams m) α

namespace OnStreams

variable {m : Type → Type} [Monad m] {α : Type}

/-- A step that leaves the streams alone. -/
def apart (x : Run m α) : OnStreams m α :=
  ExceptT.mk (StateT.lift x.run)

/-- Reads the whole source. -/
def source : OnStreams m Bytes :=
  ExceptT.mk fun streams =>
    let (content, source) := streams.source.readAll
    pure (.ok content, { streams with source := source })

def replaceDestination (content : Bytes) : OnStreams m Unit :=
  ExceptT.mk fun streams =>
    pure (.ok (), { streams with destination := streams.destination.replace content })

/-- Replaces the destination with what an edit makes of the source. -/
def rewriting (edit : Bytes → Run m (Bytes × α)) : OnStreams m α := do
  let edited ← apart (edit (← source))
  replaceDestination edited.1
  pure edited.2

end OnStreams

namespace Backend

variable {m : Type → Type} [Monad m] [Host m] [Platform]

/-- Finds the manifest of the document in the source. -/
def locateStream (b : Backend) : OnStreams m Scan := do
  OnStreams.apart (b.locate (← OnStreams.source))

def readStream (b : Backend) : OnStreams m Bytes := do
  OnStreams.apart (b.read (← OnStreams.source))

/-- What a hash of the document in the source covers and leaves out. -/
def hashRegionsStream (b : Backend) : OnStreams m (List Region) := do
  OnStreams.apart (b.hashRegions (← OnStreams.source))

/--
Writes the document with a manifest.  A companion file that cannot be named is noticed
before anything is read.
-/
def writeStream (b : Backend) (payload : Bytes) : OnStreams m Unit := do
  if b.strategy = .sidecar ∧ b.document = none then throw .noDocumentPath
  OnStreams.rewriting fun content => (·, ()) <$> b.write content payload

/-- Writes the document without its manifest, and tells whether there was one. -/
def removeStream (b : Backend) : OnStreams m Bool :=
  OnStreams.rewriting b.remove

end Backend

end PageManifest
