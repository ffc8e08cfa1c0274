import PageManifest.Config.Basic
import PageManifest.Inline
import PageManifest.Sidecar.Companion

/-!
# Backends

A backend does what its strategy says: locate, read, write and remove the manifest
of a document, and tell what a hash has to leave out.  Documents come as files, or
as bare contents whose new version is returned.
-/

namespace PageManifest

/--
A strategy with a configuration.  References in bare contents are seen from
`base`; `document` is the document that bare contents belong to.
-/
structure Backend where
  strategy : Strategy
  config : Config
  base : Path
  document : Option Path
  deriving DecidableEq, Repr

/-- What locating a manifest yields. -/
inductive Scan
  | inline (found : InlineScan)
  | reference (found : Option ReferenceScan)
  deriving DecidableEq, Repr

namespace Backend

/-- Names and media types of the documents that backends handle. -/
def assetTypes : List String :=
  ["html", "text/html"]

/-- Endings of the documents that backends handle. -/
def assetEndings : List String :=
  [".html", ".htm"]

/-- Whether documents of a name, an ending or a media type are handled. -/
def supports (assetType : String) : Bool :=
  let name := Strategy.plainName assetType
  assetTypes.contains name ||
    assetEndings.contains (if name.startsWith "." then name else "." ++ name)

def charset [Platform] (b : Backend) : Charset :=
  b.config.charset

def updated (strategy : Strategy) (t : Text) (document : Path) (payload : Bytes) :
    Except Failure Text :=
  match strategy with
  | .inline => .ok (Inline.embed t payload)
  | .sidecar =>
      (Sidecar.companion document).map fun target =>
        Sidecar.insertReference t target.name.toList

/-- What making such a document has to report. -/
def updateNotices (strategy : Strategy) (t : Text) : List Log.Record :=
  match strategy with
  | .inline => Inline.embedNotices t
  | .sidecar => Sidecar.insertNotices t

/-- A document without its manifest, as text; a companion file is none of its text. -/
def stripped (strategy : Strategy) (t : Text) : Text :=
  match strategy with
  | .inline => Inline.remove t
  | .sidecar => t

variable {m : Type → Type} [Monad m] [Host m] [Platform]

def decoded (b : Backend) (content : Bytes) : Run m Text :=
  Sidecar.decoded b.charset content

def encoded (b : Backend) (t : Text) : Run m Bytes :=
  Sidecar.encoded b.charset t

/-- The document with a manifest, with the reports of making it. -/
def update (b : Backend) (t : Text) (document : Path) (payload : Bytes) : Run m Text := do
  let t' ← Files.value (updated b.strategy t document payload)
  Files.noteAll (updateNotices b.strategy t)
  pure t'

/-- Finds the manifest of a document. -/
def locate (b : Backend) (content : Bytes) : Run m Scan := do
  let t ← b.decoded content
  match b.strategy with
  | .inline => return .inline (← Files.value (InlineScan.ofText b.charset t))
  | .sidecar => do
      Files.noteAll (ReferenceScan.notices t)
      return .reference (← Files.value (ReferenceScan.ofText b.charset t))

/-- The manifest of a document seen from a directory. -/
def readFrom (b : Backend) (base : Path) (content : Bytes) : Run m Bytes := do
  let t ← b.decoded content
  match b.strategy with
  | .inline => Files.value (InlineScan.readPayload b.charset t)
  | .sidecar => Sidecar.read b.charset t base

/-- What a hash of a document seen from a directory covers and leaves out. -/
def hashRegionsFrom (b : Backend) (base : Path) (content : Bytes) : Run m (List Region) := do
  let t ← b.decoded content
  match b.strategy with
  | .inline => do
      Files.noteAll (Inline.placeholderNotices t b.config.placeholder)
      Files.value (Inline.hashRegions b.charset t b.config.placeholder)
  | .sidecar => Sidecar.hashRegions b.charset t base

def read (b : Backend) (content : Bytes) : Run m Bytes :=
  b.readFrom b.base content

/-- What a hash of a document covers and leaves out. -/
def hashRegions (b : Backend) (content : Bytes) : Run m (List Region) :=
  b.hashRegionsFrom b.base content

/-- The document with a manifest; a companion file is written on the way. -/
def write (b : Backend) (content payload : Bytes) : Run m Bytes := do
  match b.strategy with
  | .inline => do
      let t ← b.decoded content
      let t' := Inline.embed t payload
      Files.noteAll (Inline.embedNotices t)
      b.encoded t'
  | .sidecar => do
      match b.document with
      | none => throw .noDocumentPath
      | some document => do
          let t ← b.decoded content
          let target ← Sidecar.writeCompanion b.config.tempPrefix document payload
          let t' := Sidecar.insertReference t target.name.toList
          Files.noteAll (Sidecar.insertNotices t)
          b.encoded t'

/-- The document without its manifest, and whether there was one; a companion file is deleted. -/
def remove (b : Backend) (content : Bytes) : Run m (Bytes × Bool) := do
  let t ← b.decoded content
  match b.strategy with
  | .inline => do
      let t' := Inline.remove t
      return (← b.encoded t', decide (t' ≠ t))
  | .sidecar => do
      let removed ← Sidecar.remove b.charset t b.base
      return (content, removed)

/-- Whether embedding a payload in a file would change anything. -/
def wouldChange (b : Backend) (path : Path) (payload : Bytes) : Run m Bool := do
  let t ← b.decoded (← Files.read path)
  let t' ← b.update t path payload
  match b.strategy with
  | .inline => pure (decide (t' ≠ t))
  | .sidecar =>
      if t' ≠ t then pure true
      else do
        let target ← Files.value (Sidecar.companion path)
        if ← Files.isFile target then
          return decide ((← Files.read target) ≠ payload)
        else pure true

/-- Whether removing the manifest of a file would change anything. -/
def hasManifest (b : Backend) (path : Path) : Run m Bool := do
  let t ← b.decoded (← Files.read path)
  match b.strategy with
  | .inline => pure (Inline.hasElement t)
  | .sidecar => do
      match ← Sidecar.located b.charset t path.parent with
      | some target => Files.isFile target
      | none => pure false

def readAt (b : Backend) (path : Path) : Run m Bytes := do
  b.readFrom path.parent (← Files.read path)

/-- What a hash of a file covers and leaves out. -/
def hashRegionsAt (b : Backend) (path : Path) : Run m (List Region) := do
  b.hashRegionsFrom path.parent (← Files.read path)

/-- Embeds a payload in a file. -/
def saveAt (b : Backend) (path : Path) (payload : Bytes) : Run m Unit := do
  match b.strategy with
  | .inline => do
      let t ← b.decoded (← Files.read path)
      let t' := Inline.embed t payload
      Files.noteAll (Inline.embedNotices t)
      let _ ← Files.replace b.config.tempPrefix path (← b.encoded t')
      Files.noteAll [Log.Record.info "provmark.backends.inline"
        ("inline: embedded " ++ toString payload.length ++ "-byte manifest in " ++
          path.toString)]
  | .sidecar => do
      let _ ← Sidecar.write b.charset b.config.tempPrefix path payload

/-- Removes the manifest of a file, and tells whether there was one. -/
def removeAt (b : Backend) (path : Path) : Run m Bool := do
  let t ← b.decoded (← Files.read path)
  match b.strategy with
  | .inline => do
      let t' := Inline.remove t
      let content ← b.encoded t'
      if t' ≠ t then do
        let _ ← Files.replace b.config.tempPrefix path content
        Files.noteAll [Log.Record.info "provmark.backends.inline"
          ("inline: removed manifest from " ++ path.toString)]
        pure true
      else pure false
  | .sidecar => do
      let removed ← Sidecar.remove b.charset t path.parent
      if removed then
        Files.noteAll [Log.Record.info "provmark.backends.sidecar"
          ("sidecar: removed companion manifest of " ++ path.toString)]
      pure removed

end Backend

end PageManifest
