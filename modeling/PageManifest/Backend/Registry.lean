import PageManifest.Backend.Basic

/-!
# The table of backends

Strategies are put into practice by kinds of backends.  The table says which kind is
used for a strategy; a strategy never gets a second kind.
-/

namespace PageManifest.Backend

/-- A kind of backend: one of the two that are built in, or a further one told apart by a number. -/
inductive Kind
  | inline
  | sidecar
  | further (number : Nat) (name : String) (strategy : Strategy)
  deriving DecidableEq, Repr

namespace Kind

def name : Kind → String
  | inline => "InlineBackend"
  | sidecar => "SidecarBackend"
  | further _ name _ => name

/-- The strategy that a kind names as its own. -/
def strategy : Kind → Strategy
  | inline => .inline
  | sidecar => .sidecar
  | further _ _ strategy => strategy

/-- How messages show a backend of a kind. -/
def describe (k : Kind) : String :=
  k.name ++ "(strategy='" ++ k.strategy.name ++ "')"

end Kind

/-- Kinds of backends by strategy, in the order in which they were entered. -/
structure Registry where
  entries : List (Strategy × Kind)
  deriving DecidableEq, Repr

namespace Registry

/-- The table with both kinds that are built in. -/
def builtIn : Registry :=
  ⟨[(.inline, .inline), (.sidecar, .sidecar)]⟩

def kind? (r : Registry) (strategy : Strategy) : Option Kind :=
  r.entries.lookup strategy

/-- Enters a kind for a strategy; `none` if the strategy has another kind already. -/
def register? (r : Registry) (strategy : Strategy) (kind : Kind) : Option Registry :=
  match r.kind? strategy with
  | none => some ⟨r.entries ++ [(strategy, kind)]⟩
  | some current => if current = kind then some r else none

/-- The complaint about a strategy that has another kind already. -/
def takenMessage (strategy : Strategy) : String :=
  "Strategy '" ++ strategy.name ++ "' already has a registered backend."

/-- Takes the entry of a strategy out of the table. -/
def drop (r : Registry) (strategy : Strategy) : Registry :=
  ⟨r.entries.filter fun (s, _) => s ≠ strategy⟩

def find (r : Registry) (strategy : String) : Except Failure Kind :=
  match Strategy.ofName? strategy with
  | none => .error (.unknownStrategy strategy)
  | some s =>
      match r.kind? s with
      | none => .error (.unregistered s)
      | some kind => .ok kind

/-- The kind for the name of a strategy, if it handles documents of some type. -/
def findFor (r : Registry) (assetType : String) (strategy : String) : Except Failure Kind :=
  match r.find strategy with
  | .error failure => .error failure
  | .ok kind => if supports assetType then .ok kind else .error (.unsupportedAsset assetType)

end Registry

end PageManifest.Backend
