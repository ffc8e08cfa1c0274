import PageManifest.Text.Basic

/-!
# Message templates

A template is text with places for arguments.  A place starts with a percent sign and
ends with a letter for what it shows; in between it may give the name of its argument,
flags, a width and a precision.  A percent sign that is meant as such is written twice.
-/

namespace PageManifest.Log

/-- How a number with a fraction is written. -/
inductive Form
  | fixed
  | scientific
  | general
  deriving DecidableEq, Repr

/-- What a place shows of its argument. -/
inductive Kind
  | plain
  | quoted
  /-- The quoted text with escapes for what is beyond ASCII. -/
  | ascii
  | character
  | decimal
  /-- An integer in a base, with the letter that marks the base. -/
  | based (base : Nat) (mark : Char)
  | number (form : Form) (capitals : Bool)
  deriving DecidableEq, Repr

/-- The kind of place that a letter ends. -/
def Kind.ofChar? : Char → Option Kind
  | 's' => some plain
  | 'r' => some quoted
  | 'a' => some ascii
  | 'c' => some character
  | 'd' => some decimal
  | 'i' => some decimal
  | 'u' => some decimal
  | 'o' => some (based 8 'o')
  | 'x' => some (based 16 'x')
  | 'X' => some (based 16 'X')
  | 'f' => some (number .fixed false)
  | 'F' => some (number .fixed true)
  | 'e' => some (number .scientific false)
  | 'E' => some (number .scientific true)
  | 'g' => some (number .general false)
  | 'G' => some (number .general true)
  | _ => none

structure Flags where
  left : Bool
  zeros : Bool
  plus : Bool
  blank : Bool
  alternate : Bool
  deriving DecidableEq, Repr

namespace Flags

def bare : Flags :=
  ⟨false, false, false, false, false⟩

def read (f : Flags) : Text → Flags × Text
  | '-' :: t => read { f with left := true } t
  | '0' :: t => read { f with zeros := true } t
  | '+' :: t => read { f with plus := true } t
  | ' ' :: t => read { f with blank := true } t
  | '#' :: t => read { f with alternate := true } t
  | t => (f, t)

end Flags

/-- A width or a precision. -/
inductive Extent
  | given (n : Nat)
  /-- The next argument says how much. -/
  | taken
  deriving DecidableEq, Repr

namespace Extent

/-- The number that decimal digits at the start of a text denote, and what follows them. -/
def readNumber (t : Text) : Nat × Text :=
  ((t.takeWhile Char.isDigit).foldl (fun n d => n * 10 + (d.toNat - 0x30)) 0,
    t.dropWhile Char.isDigit)

/-- Reads an extent at the start of a text; one without digits is zero. -/
def read? (limit : Nat) (t : Text) : Option (Extent × Text) :=
  match t with
  | '*' :: t => some (taken, t)
  | t =>
      let (n, t) := readNumber t
      if limit < n then none else some (given n, t)

end Extent

/-- The largest width of a place. -/
def widthLimit : Nat :=
  0x7fffffffffffffff

/-- The largest precision of a place. -/
def precisionLimit : Nat :=
  0x7fffffff

structure Place where
  name : Option Text
  flags : Flags
  width : Extent
  precision : Option Extent
  /-- What is shown; nothing stands for a percent sign. -/
  kind : Option Kind
  deriving DecidableEq, Repr

inductive Part
  | character (c : Char)
  | place (p : Place)
  deriving DecidableEq, Repr

namespace Place

/-- The text up to the bracket that closes as many brackets as are open, and what follows it. -/
def readName? : (depth : Nat) → Text → Option (Text × Text)
  | _, [] => none
  | 0, ')' :: t => some ([], t)
  | depth + 1, ')' :: t => (readName? depth t).map fun (name, rest) => (')' :: name, rest)
  | depth, '(' :: t => (readName? (depth + 1) t).map fun (name, rest) => ('(' :: name, rest)
  | depth, c :: t => (readName? depth t).map fun (name, rest) => (c :: name, rest)

/-- Reads the name of an argument, if there is one. -/
def readNamed? : Text → Option (Option Text × Text)
  | '(' :: t => (readName? 0 t).map fun (name, rest) => (some name, rest)
  | t => some (none, t)

def readPrecision? : Text → Option (Option Extent × Text)
  | '.' :: t => (Extent.read? precisionLimit t).map fun (extent, rest) => (some extent, rest)
  | t => some (none, t)

/-- A text without the letter for the length of a number, which makes no difference. -/
def withoutLength : Text → Text
  | 'h' :: t => t
  | 'l' :: t => t
  | 'L' :: t => t
  | t => t

/-- Reads the letter that ends a place; a percent sign has no kind. -/
def readKind? : Text → Option (Option Kind × Text)
  | [] => none
  | '%' :: t => some (none, t)
  | c :: t => (Kind.ofChar? c).map fun kind => (some kind, t)

/-- Reads a place behind its percent sign. -/
def read? (t : Text) : Option (Place × Text) := do
  let (name, t) ← readNamed? t
  let (flags, t) := Flags.bare.read t
  let (width, t) ← Extent.read? widthLimit t
  let (precision, t) ← readPrecision? t
  let (kind, t) ← readKind? (withoutLength t)
  some (⟨name, flags, width, precision, kind⟩, t)

end Place

/-- Reads the parts of a template, with as many steps as it has characters. -/
def readParts : (fuel : Nat) → Text → Option (List Part)
  | _, [] => some []
  | 0, _ :: _ => none
  | fuel + 1, '%' :: '%' :: t => (readParts fuel t).map (.character '%' :: ·)
  | fuel + 1, '%' :: t =>
      match Place.read? t with
      | some (place, t) => (readParts fuel t).map (.place place :: ·)
      | none => none
  | fuel + 1, c :: t => (readParts fuel t).map (.character c :: ·)

/-- The parts of a template, if it is well formed. -/
def parts? (template : Text) : Option (List Part) :=
  readParts template.length template

end PageManifest.Log
