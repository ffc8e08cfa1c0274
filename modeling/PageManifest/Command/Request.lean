import PageManifest.Command.Action
import PageManifest.Strategy

/-!
# Requests

The commands of the program, what each takes, and the request that a checked command
line makes of one.
-/

namespace PageManifest.Command

/-- The commands, in the order of their names. -/
inductive Verb
  | config
  | embed
  | read
  | regions
  | strip
  | version
  deriving DecidableEq, Repr

namespace Verb

def all : List Verb :=
  [config, embed, read, regions, strip, version]

def name : Verb → String
  | config => "config"
  | embed => "embed"
  | read => "read"
  | regions => "regions"
  | strip => "strip"
  | version => "version"

def about : Verb → String
  | config => "Show the effective configuration as TOML."
  | embed => "Embed a C2PA manifest store in an HTML document."
  | read => "Extract the C2PA manifest store of an HTML document."
  | regions => "Show the hash regions of an HTML document."
  | strip => "Remove the C2PA manifest from an HTML document."
  | version => "Show the current version of ProvMark."

def ofName? (name : String) : Option Verb :=
  all.find? (·.name = name)

@[simp] theorem ofName?_name (v : Verb) : ofName? v.name = some v := by
  cases v <;> rfl

end Verb

/-- A switch without a value. -/
def flag (name help : String) : Switch :=
  ⟨none, name, .nothing, false, help⟩

def changeSwitches : List Switch :=
  [flag "apply" "Write changes (default is a dry run that exits 2 when changes would be made).",
   flag "diff" "Show a unified diff of the document change."]

/-- The formats in which regions are written. -/
def formats : List String :=
  ["text", "json"]

def Verb.switches : Verb → List Switch
  | config => []
  | embed =>
      ⟨some 'm', "manifest", .file, true, "File holding the manifest store bytes."⟩ ::
        changeSwitches
  | read =>
      [⟨some 'o', "output", .file, false,
        "Write the raw manifest bytes to this file instead of printing base64."⟩]
  | regions =>
      [⟨none, "format", .choice formats, false, "Output format.  [default: text]"⟩,
       flag "digest" "Also print the SHA-256 over the included regions (inline strategy only)."]
  | strip => changeSwitches
  | version => [flag "json" "Print the version as a JSON object."]

def Verb.operand : Verb → Option String
  | config => none
  | version => none
  | _ => some "PATH"

def Verb.manual (verb : Verb) (letter : Option Char) : Manual :=
  ⟨verb.about, verb.switches ++ [Manual.helpSwitch letter], verb.operand, []⟩

/-- What a command is asked to do. -/
inductive Request
  | config
  | version (json : Bool)
  | read (document : Path) (output : Option Path)
  | embed (document manifest : Path) (apply diff : Bool)
  | strip (document : Path) (apply diff : Bool)
  | regions (document : Path) (json digest : Bool)
  deriving DecidableEq, Repr

/-- The request that a checked command line makes. -/
def Request.ofLine (verb : Verb) (line : Line) : Request :=
  let document := Path.ofString (line.operands.head?.getD "")
  match verb with
  | .config => .config
  | .version => .version (line.has "json")
  | .read => .read document ((line.value? "output").map Path.ofString)
  | .embed =>
      .embed document (Path.ofString ((line.value? "manifest").getD "")) (line.has "apply")
        (line.has "diff")
  | .strip => .strip document (line.has "apply") (line.has "diff")
  | .regions =>
      .regions document ((line.value? "format").bind (chosen? formats) = some "json")
        (line.has "digest")

/-- What is settled for all commands. -/
structure Settings where
  verbose : Nat
  quiet : Nat
  color : Bool
  config : Option Path
  strategy : Option String
  encoding : Option String
  deriving DecidableEq, Repr

namespace Settings

def switches : List Switch :=
  [⟨some 'q', "quiet", .nothing, false, "Suppress output."⟩,
   ⟨some 'v', "verbose", .nothing, false,
    "Increase verbosity. Specify up to twice for more detail."⟩,
   flag "no-color" "Disable colored output.",
   ⟨some 'c', "config", .file, false,
    "Read configuration from this TOML file (disables discovery)."⟩,
   ⟨some 's', "strategy", .choice (Strategy.all.map Strategy.name), false,
    "Embedding strategy (overrides configuration)."⟩,
   ⟨none, "encoding", .text, false,
    "Text encoding of HTML documents (overrides configuration)."⟩,
   Manual.helpSwitch (some 'h')]

def manual : Manual :=
  ⟨"ProvMark CLI: embed, read and strip C2PA manifests in HTML documents.", switches, none,
    Verb.all.map fun verb => (verb.name, verb.about)⟩

/-- The settings that a checked command line makes. -/
def ofLine (line : Line) : Settings :=
  ⟨line.count "verbose", line.count "quiet", !line.has "no-color",
    (line.value? "config").map Path.ofString,
    (line.value? "strategy").bind (chosen? (Strategy.all.map Strategy.name)),
    line.value? "encoding"⟩

end Settings

/-- How much is told: nothing but data when quiet, and the more the more often it is asked for. -/
def verbosity (verbose quiet : Nat) : Except Error Int :=
  if 0 < verbose ∧ 0 < quiet then
    .error ⟨.usage, "The '--verbose' and '--quiet' options are mutually exclusive."⟩
  else if 0 < quiet then .ok (-1)
  else .ok verbose

end PageManifest.Command
