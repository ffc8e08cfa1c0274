import PageManifest.Text.Quoted

/-!
# Paths

A path is a root, possibly none, and the names below it.  Reading a path drops
empty names and single dots; two dots stay, because what they mean depends on the
directory tree.
-/

namespace PageManifest

inductive PathRoot
  | none
  | slash
  | doubleSlash
  deriving DecidableEq, Repr

/-- A path as its root and its names, outermost first. -/
structure Path where
  root : PathRoot
  parts : List String
  deriving DecidableEq, Repr

namespace Path

/-- The written form of a root. -/
def rootText : PathRoot → String
  | .none => ""
  | .slash => "/"
  | .doubleSlash => "//"

/-- The pieces of a text between occurrences of a separator. -/
def splitAll (sep : Char) : Text → List Text
  | [] => [[]]
  | c :: t =>
      if c = sep then [] :: splitAll sep t
      else
        match splitAll sep t with
        | [] => [[c]]
        | piece :: rest => (c :: piece) :: rest

/-- The root that a written path starts with. -/
def rootOf (t : Text) : PathRoot :=
  match (t.takeWhile (· = '/')).length with
  | 0 => .none
  | 2 => .doubleSlash
  | _ => .slash

/-- Whether a piece of a written path names something. -/
def isName (piece : Text) : Bool :=
  !piece.isEmpty && piece != ['.']

/-- Reads a written path. -/
def ofText (t : Text) : Path :=
  ⟨rootOf t, ((splitAll '/' t).filter isName).map String.ofList⟩

/-- Reads a written path. -/
def ofString (s : String) : Path :=
  ofText s.toList

/-- A written path with nothing dropped, for what depends on how a path is written. -/
def verbatim (t : Text) : Path :=
  ⟨rootOf t, (splitAll '/' (t.dropWhile (· = '/'))).map String.ofList⟩

/-- The written form; the empty path is a dot. -/
protected def toString (p : Path) : String :=
  match p.root, p.parts with
  | .none, [] => "."
  | root, parts => rootText root ++ "/".intercalate parts

instance : ToString Path := ⟨Path.toString⟩

/-- The last name, empty for a root or the empty path. -/
def name (p : Path) : String :=
  p.parts.getLast?.getD ""

/-- The path without its last name. -/
def parent (p : Path) : Path :=
  ⟨p.root, p.parts.dropLast⟩

/-- All paths above a path, the nearest first. -/
def parents (p : Path) : List Path :=
  (List.range p.parts.length).reverse.map fun n => ⟨p.root, p.parts.take n⟩

def child (p : Path) (name : String) : Path :=
  ⟨p.root, p.parts ++ [name]⟩

/-- A path seen from another: one that has a root stands for itself. -/
def join (base p : Path) : Path :=
  match p.root with
  | .none => ⟨base.root, base.parts ++ p.parts⟩
  | _ => p

/-- The path with another last name; a path without a last name has none to replace. -/
def withName? (p : Path) (name : String) : Option Path :=
  if p.name = "" then none else some ⟨p.root, p.parts.dropLast ++ [name]⟩

/--
The end of the last name from its last dot on.  A dot at either end of the name
starts no suffix.
-/
def suffix (p : Path) : String :=
  let name := p.name.toList
  let tail := (name.reverse.takeWhile (· ≠ '.')).reverse
  let stem := name.length - tail.length
  if 1 < stem ∧ tail ≠ [] then String.ofList (name.drop (stem - 1)) else ""

/-- Names with two dots taken back, as far as there is a name to take back. -/
def collapse (rooted : Bool) (seen : List String) : List String → List String
  | [] => seen.reverse
  | part :: rest =>
      if part = "" ∨ part = "." then collapse rooted seen rest
      else if part = ".." then
        match seen with
        | [] => collapse rooted (if rooted then [] else [".."]) rest
        | last :: above =>
            if last = ".." then collapse rooted (".." :: seen) rest
            else collapse rooted above rest
      else collapse rooted (part :: seen) rest

/-- The path from the root that a path means, seen from a working directory. -/
def absolute (p workingDirectory : Path) : Path :=
  let whole := workingDirectory.join p
  ⟨whole.root, collapse (whole.root != .none) [] whole.parts⟩

/-- What a written name means below a path, as it is written; a leading slash starts anew. -/
def below (p : Path) (written : String) : Path :=
  match rootOf written.toList with
  | .none => ⟨p.root, p.parts ++ (splitAll '/' written.toList).map String.ofList⟩
  | _ => ofString written

/-- The path without empty names and single dots. -/
def tidy (p : Path) : Path :=
  ⟨p.root, p.parts.filter fun name => isName name.toList⟩

/-- How messages show a path object. -/
def describe (p : Path) : String :=
  "PosixPath(" ++ Text.quotedString p.toString ++ ")"

/-- Whether the path holds a NUL, which no file name may. -/
def hasNul (p : Path) : Bool :=
  p.parts.any (·.toList.contains '\x00')

end Path

end PageManifest
