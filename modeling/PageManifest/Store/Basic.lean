import PageManifest.Host

/-!
# Directory trees

A store holds files and directories by their location, the names from the root
down.  Every operation first walks a path, and is refused where the walk fails; an
operation that is refused changes nothing.
-/

namespace PageManifest

/-- The names that lead to a place, from the root down. -/
abbrev Location := List String

/-- What a store holds at a location. -/
inductive Node
  | file (content : Bytes)
  | directory
  deriving DecidableEq, Repr

/-- All places below the root that hold something, in the order in which they were made. -/
structure Store where
  nodes : List (Location × Node)
  deriving DecidableEq, Repr

namespace Store

/-- A store with nothing below the root. -/
def empty : Store :=
  ⟨[]⟩

/-- What a store holds at a location; the root is a directory. -/
def node? (s : Store) (place : Location) : Option Node :=
  if place = [] then some .directory else s.nodes.lookup place

/-- A store with something else at a location. -/
def set (s : Store) (place : Location) (node : Node) : Store :=
  if (s.nodes.lookup place).isSome then
    ⟨s.nodes.map fun (p, n) => if p = place then (p, node) else (p, n)⟩
  else ⟨s.nodes ++ [(place, node)]⟩

def erase (s : Store) (place : Location) : Store :=
  ⟨s.nodes.filter fun (p, _) => p ≠ place⟩

theorem lookup_replaced (place : Location) (node : Node) (l : List (Location × Node))
    (other : Location) :
    (l.map fun (p, n) => if p = place then (p, node) else (p, n)).lookup other =
      if other = place then (l.lookup other).map fun _ => node else l.lookup other := by
  induction l with
  | nil => simp
  | cons entry l ih =>
      obtain ⟨p, n⟩ := entry
      by_cases ho : other = p
      · subst ho
        by_cases hp : other = place
        · simp [hp]
        · simp [hp]
      · have hne : (other == p) = false := by simpa using ho
        by_cases hp : p = place
        · subst hp
          simpa [List.lookup_cons, hne, ho] using ih
        · simpa [List.lookup_cons, hne, hp] using ih

/-- Where nothing is replaced all stays. -/
theorem map_replaced {place : Location} {l : List (Location × Node)}
    (h : ∀ entry ∈ l, entry.1 ≠ place) (node : Node) :
    (l.map fun (p, n) => if p = place then (p, node) else (p, n)) = l := by
  induction l with
  | nil => rfl
  | cons entry l ih =>
      have hne : entry.1 ≠ place := h entry (by simp)
      rw [List.map_cons, ih fun other hother => h other (by simp [hother])]
      simp [hne]

theorem lookup_erased (place : Location) (l : List (Location × Node)) (other : Location) :
    (l.filter fun (p, _) => p ≠ place).lookup other =
      if other = place then none else l.lookup other := by
  induction l with
  | nil => simp
  | cons entry l ih =>
      obtain ⟨p, n⟩ := entry
      rw [List.filter_cons]
      by_cases hp : p = place
      · subst hp
        by_cases ho : other = p
        · simpa [ho] using ih
        · have hne : (other == p) = false := by simpa using ho
          simpa [List.lookup_cons, ho, hne] using ih
      · by_cases ho : other = p
        · subst ho
          simp [hp]
        · have hne : (other == p) = false := by simpa using ho
          simpa [List.lookup_cons, hp, hne] using ih

/-- Below the root a store holds what was put there last. -/
theorem node?_set (s : Store) {place : Location} (h : place ≠ []) (node : Node)
    (other : Location) :
    (s.set place node).node? other = if other = place then some node else s.node? other := by
  by_cases root : other = []
  · simp [node?, root, Ne.symm h]
  · unfold set
    cases found : s.nodes.lookup place with
    | some current =>
        by_cases ho : other = place
        · simp [node?, lookup_replaced, ho, h, found]
        · simp [node?, lookup_replaced, ho, root]
    | none =>
        by_cases ho : other = place
        · simp [node?, List.lookup_append, ho, h, found]
        · have hne : (other == place) = false := by simpa using ho
          simp [node?, List.lookup_append, List.lookup_cons, ho, root, hne]

/-- Erasing takes one place away, and nothing else. -/
theorem node?_erase (s : Store) {place : Location} (h : place ≠ []) (other : Location) :
    (s.erase place).node? other = if other = place then none else s.node? other := by
  by_cases root : other = []
  · simp [node?, root, Ne.symm h]
  · unfold node? erase
    rw [if_neg root, lookup_erased, if_neg root]

/-- The longest name, in octets. -/
def nameLimit : Nat := 255

/-- The longest path, in octets. -/
def pathLimit : Nat := 4095

/--
Walks names from a directory.  All but the last have to be there, as directories.
-/
def walk (s : Store) (here : Location) : List String → Except OsFault.Cause Location
  | [] => .ok here
  | name :: rest =>
      if name = "" ∨ name = "." then s.walk here rest
      else if name = ".." then s.walk here.dropLast rest
      else if nameLimit < name.utf8ByteSize then .error .nameTooLong
      else if rest = [] then .ok (here ++ [name])
      else
        match s.node? (here ++ [name]) with
        | some .directory => s.walk (here ++ [name]) rest
        | some (.file _) => .error .notDirectory
        | none => .error .noEntry

/-- The location that a path means, seen from a directory. -/
def locate (s : Store) (here : Location) (path : Path) : Except OsFault.Cause Location :=
  if pathLimit < path.toString.utf8ByteSize then .error .nameTooLong
  else s.walk (if path.root = .none then here else []) path.parts

/-- The place that a path leads to, and what is there. -/
def find (s : Store) (here : Location) (path : Path) :
    Except OsFault.Cause (Location × Node) :=
  match s.locate here path with
  | .error cause => .error cause
  | .ok place =>
      match s.node? place with
      | some node => .ok (place, node)
      | none => .error .noEntry

def readFile (s : Store) (here : Location) (path : Path) : Except OsFault.Cause Bytes :=
  match s.find here path with
  | .error cause => .error cause
  | .ok (_, .file content) => .ok content
  | .ok (_, .directory) => .error .isDirectory

def status (s : Store) (here : Location) (path : Path) : Except OsFault.Cause Status :=
  match s.find here path with
  | .error cause => .error cause
  | .ok (_, .file content) => .ok (.file content.length)
  | .ok (_, .directory) => .ok .directory

/-- A store with an empty file at a place where nothing was. -/
def createFile (s : Store) (here : Location) (path : Path) : Except OsFault.Cause Store :=
  match s.locate here path with
  | .error cause => .error cause
  | .ok place =>
      match s.node? place with
      | some _ => .error .alreadyThere
      | none => .ok (s.set place (.file []))

/-- A store with another content in a file. -/
def writeFile (s : Store) (here : Location) (path : Path) (content : Bytes) :
    Except OsFault.Cause Store :=
  match s.find here path with
  | .error cause => .error cause
  | .ok (place, .file _) => .ok (s.set place (.file content))
  | .ok (_, .directory) => .error .isDirectory

/-- A store with a file moved over another. -/
def rename (s : Store) (here : Location) (source target : Path) : Except OsFault.Cause Store :=
  match s.find here source with
  | .error cause => .error cause
  | .ok (place, node) =>
      match s.locate here target with
      | .error cause => .error cause
      | .ok goal =>
          if target.parts = [] ∨ target.name = ".." then .error .busy
          else if s.node? goal = some .directory then .error .isDirectory
          else .ok ((s.erase place).set goal node)

def removeFile (s : Store) (here : Location) (path : Path) : Except OsFault.Cause Store :=
  match s.find here path with
  | .error cause => .error cause
  | .ok (place, .file _) => .ok (s.erase place)
  | .ok (_, .directory) => .error .isDirectory

end Store

end PageManifest
