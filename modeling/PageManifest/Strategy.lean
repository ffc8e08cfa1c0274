import PageManifest.Text.Quoted

/-!
# Embedding strategies

A manifest lives either inside its document or in a companion file beside it.
-/

namespace PageManifest

inductive Strategy
  | inline
  | sidecar
  deriving DecidableEq, Repr

namespace Strategy

def name : Strategy → String
  | inline => "inline"
  | sidecar => "sidecar"

def all : List Strategy :=
  [inline, sidecar]

/-- A text in small ASCII letters without blanks around it, the form in which names are compared. -/
def plainName (value : String) : String :=
  String.ofList ((Text.trim value.toList).map Char.toLower)

/-- The strategy of a name, whatever its case and the blanks around it. -/
def ofName? (value : String) : Option Strategy :=
  all.find? (·.name = plainName value)

/-- The complaint about a name that no strategy has. -/
def unknownMessage (value : String) : String :=
  "unknown strategy " ++ Text.quotedString value ++ " (expected one of: " ++
    ", ".intercalate (all.map name) ++ ")"

@[simp] theorem ofName?_name (s : Strategy) : ofName? s.name = some s := by
  cases s <;> rfl

end Strategy

end PageManifest
