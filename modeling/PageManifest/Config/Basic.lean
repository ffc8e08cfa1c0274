import PageManifest.Failure
import PageManifest.Toml.Value

/-!
# Configuration

A configuration says where manifests are stored and how documents are read and
written.  The table of a configuration file is laid over another configuration,
key by key, and so are single settings.
-/

namespace PageManifest

/-- How documents are treated, and the file that says so, if any. -/
structure Config where
  strategy : Strategy
  encoding : String
  placeholder : Bytes
  tempPrefix : String
  source : Option Path
  deriving DecidableEq, Repr

namespace Config

/-- The configuration that applies where nothing is configured. -/
def standard : Config :=
  ⟨.inline, "utf-8", Charset.Codec.utf8.body "placeholder manifest".toList, "c2pa_temp", none⟩

/-- The name of the table that configures the program. -/
def tableName : String :=
  "provmark"

def charset [Platform] (c : Config) : Charset :=
  Charset.ofName c.encoding

def readStrategy (source : Option Path) (name : String) : Except Failure Strategy :=
  match Strategy.ofName? name with
  | some strategy => .ok strategy
  | none => .error (.badConfig (.unknownStrategy name) source)

/-- Reads the name of an encoding into its canonical form. -/
def readEncoding (source : Option Path) (name : Text) : Except Failure String :=
  let trimmed := Text.trim name
  if trimmed.isEmpty then .error (.badConfig .emptyEncoding source)
  else if trimmed.contains '\x00' then .error (.charset .nulInName)
  else
    match Charset.canonicalName? (String.ofList trimmed) with
    | some canonical => .ok canonical
    | none => .error (.badConfig (.unknownEncoding (String.ofList name)) source)

def readPlaceholder (source : Option Path) (t : Text) : Except Failure Bytes :=
  if t.isEmpty then .error (.badConfig .badPlaceholder source)
  else .ok (Charset.Codec.utf8.body t)

/-- Reads how names of temporary files start. -/
def readTempPrefix (source : Option Path) (t : Text) : Except Failure String :=
  if t.isEmpty || t.contains '/' || t.contains '\\' then .error (.badConfig .badTempPrefix source)
  else .ok (String.ofList t)

def textOf (fault : ConfigFault) (source : Option Path) : Toml.Value → Except Failure Text
  | .text t => .ok t
  | _ => .error (.badConfig fault source)

/-- The keys of a configuration table. -/
def keys : List String :=
  ["strategy", "encoding", "placeholder", "temp_prefix"]

/-- The value of a key, read and put into a configuration; a missing key changes nothing. -/
def setting (entries : Toml.Entries) (key : String)
    (read : Toml.Value → Except Failure Config) (c : Config) : Except Failure Config :=
  match entries.lookup key.toList with
  | none => .ok c
  | some v => read v

/-- A configuration with the entries of a table laid over it. -/
def withEntries (c : Config) (entries : Toml.Entries) (source : Option Path) :
    Except Failure Config := do
  let c ← setting entries "strategy" (fun v => do
    let name ← textOf (.noString "strategy") source v
    return { c with strategy := ← readStrategy source (String.ofList name) }) c
  let c ← setting entries "encoding" (fun v => do
    let name ← textOf .emptyEncoding source v
    return { c with encoding := ← readEncoding source name }) c
  let c ← setting entries "placeholder" (fun v => do
    let t ← textOf .badPlaceholder source v
    return { c with placeholder := ← readPlaceholder source t }) c
  let c ← setting entries "temp_prefix" (fun v => do
    let t ← textOf .badTempPrefix source v
    return { c with tempPrefix := ← readTempPrefix source t }) c
  return { c with source := source <|> c.source }

/-- What laying a table over a configuration has to report: keys that mean nothing. -/
def notices (entries : Toml.Entries) (source : Option Path) : List Log.Record :=
  let place := match source with
    | some path => " in " ++ path.toString
    | none => ""
  (entries.filter fun (key, _) => !keys.contains (String.ofList key)).map fun (key, _) =>
    Log.Record.warning "provmark.config.model"
      ("Ignoring unknown config key " ++ String.ofList (Text.quoted key) ++ place)

/-- A configuration with single settings laid over it. -/
def withSettings (c : Config) (strategy encoding : Option String) : Except Failure Config := do
  let c ← match strategy with
    | some name => do pure { c with strategy := ← readStrategy none name }
    | none => pure c
  match encoding with
  | some name => do pure { c with encoding := ← readEncoding none name.toList }
  | none => pure c

end Config

end PageManifest
