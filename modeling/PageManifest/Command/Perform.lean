import PageManifest.Backend.Registry
import PageManifest.Command.Request
import PageManifest.Config.Written
import PageManifest.Json

/-!
# Performing requests

Commands that change documents are dry runs unless they are asked to apply the
change.  A dry run that finds something to change says so by its status.
-/

namespace PageManifest.Command

def version : String :=
  "0.3.0"

variable {m : Type → Type} [Monad m] [Host m] [Platform]

/-- The backend that a configuration names, if it handles a document. -/
def backendFor (config : Config) (document : Path) : Act m Backend := do
  let assetType := if document.suffix = "" then document.name else document.suffix
  let _ ← reporting (some document)
    (Files.value (Backend.Registry.builtIn.findFor assetType config.strategy.name))
  pure ⟨config.strategy, config, document.parent, some document⟩

def documentText (config : Config) (document : Path) : Act m Text :=
  reporting (some document) (do
    let content ← Files.read document
    Sidecar.decoded config.charset content)

/-- Writes the configuration in effect. -/
def config (c : Config) : Act m Status := do
  say (.text c.written)
  pure .success

/-- Writes the version of the program. -/
def tellVersion (detailed json : Bool) : Act m Status := do
  let bold := Terminal.Piece.painted (.ofEmphases [.bold]) version.toList
  if json then
    say (.ofLine (Json.record [("version", .text version.toList)]).compact)
  else if detailed then
    say (.line [.painted (.ofEmphases [.bold, .underline]) "ProvMark version:".toList])
    say (.line [.plain "    ".toList, bold])
  else say (.line [bold])
  pure .success

/-- Reads the manifest of a document, and prints it or writes it to a file. -/
def read (c : Config) (document : Path) (output : Option Path) : Act m Status := do
  let backend ← backendFor c document
  let payload ← reporting (some document) (backend.readAt document)
  match output with
  | none => say (.ofLine (Base64.encode payload))
  | some output => do
      let _ ← reporting (some output) (Files.replace c.tempPrefix output payload)
      tell output ("wrote " ++ toString payload.length ++ " manifest bytes from " ++
        document.toString) none
  pure .success

def embed (c : Config) (document manifest : Path) (apply diff : Bool) : Act m Status := do
  let backend ← backendFor c document
  let payload ← reporting (some manifest) (Files.read manifest)
  if payload.isEmpty then
    throw (.error ⟨.usage, manifest.toString ++ ": manifest store is empty"⟩)
  let before ← documentText c document
  let after ← reporting (some document) (backend.update before document payload)
  let changed ← reporting (some document) (backend.wouldChange document payload)
  if diff then say (.diff (Diff.unified before after document.toString))
  let summary := toString payload.length ++ "-byte manifest (" ++ c.strategy.name ++ ")"
  if !changed then
    tell document "manifest already up to date" none
    pure .success
  else if !apply then
    tell document ("would embed " ++ summary ++ "; run with --apply to write") none
    pure .wouldChange
  else
    reporting (some document) (backend.saveAt document payload)
    tell document ("embedded " ++ summary) (some .green)
    pure .success

def strip (c : Config) (document : Path) (apply diff : Bool) : Act m Status := do
  let backend ← backendFor c document
  let present ← reporting (some document) (backend.hasManifest document)
  if !present then
    tell document "no manifest to remove" none
    pure .success
  else
    if diff then
      let before ← documentText c document
      say (.diff (Diff.unified before (Backend.stripped c.strategy before) document.toString))
    if !apply then
      tell document "would remove manifest; run with --apply to write" none
      pure .wouldChange
    else
      let _ ← reporting (some document) (backend.removeAt document)
      tell document "manifest removed" (some .green)
      pure .success

/-- The digest of a document over the regions that a hash covers. -/
def digestOf (c : Config) (document : Path) (regions : List Region) : Act m String := do
  let t ← documentText c document
  reporting (some document) (do
    let padded ← Files.value (Inline.withPlaceholder t c.placeholder)
    Files.noteAll (Inline.placeholderNotices t c.placeholder)
    let content ← Sidecar.encoded c.charset padded
    Files.value ((Region.digestIncluded content regions "sha256").mapError .region))

/-- A number behind blanks, ten columns wide. -/
def inColumn (n : Int) : Text :=
  let digits := (toString n).toList
  List.replicate (10 - digits.length) ' ' ++ digits

def regionLine (r : Region) : Terminal.Message :=
  let t := inColumn r.offset ++ ' ' :: inColumn r.length ++ ' ' :: ' ' ::
    r.kind.name.toList.map Char.toUpper
  match r.kind with
  | .included => .ofLine t
  | .excluded => .line [.painted (.ofColor .yellow) t]

def regionRecord (r : Region) : Json :=
  .record [("offset", .number r.offset), ("length", .number r.length),
    ("kind", .text r.kind.name.toList)]

/-- Shows what a hash of a document covers and leaves out. -/
def regions (c : Config) (document : Path) (json digest : Bool) : Act m Status := do
  let backend ← backendFor c document
  let found ← reporting (some document) (backend.hashRegionsAt document)
  if digest && c.strategy ≠ .inline then
    throw (.error ⟨.unsupported, "--digest is only available for the inline strategy"⟩)
  let sum ← if digest then some <$> digestOf c document found else pure none
  if json then
    say (.ofLine (Json.record ([("path", .text document.toString.toList),
      ("strategy", .text c.strategy.name.toList), ("regions", .list (found.map regionRecord))] ++
        sum.toList.map fun sum => ("sha256", .text sum.toList))).indented)
  else
    found.forM fun r => say (regionLine r)
    sum.toList.forM fun sum => say (.ofLine ("sha256: " ++ sum).toList)
  pure .success

/-- Performs a request; `detailed` asks for more than the bare version. -/
def perform (c : Config) (detailed : Bool) : Request → Act m Status
  | .config => config c
  | .version json => tellVersion detailed json
  | .read document output => read c document output
  | .embed document manifest apply diff => embed c document manifest apply diff
  | .strip document apply diff => strip c document apply diff
  | .regions document json digest => regions c document json digest

end PageManifest.Command
