import PageManifest.Log.Argument
import PageManifest.Log.Template

/-!
# Messages

A message is a template whose places are filled, in order, from some arguments.  Every
argument has to be used, and every place needs one that suits it.  A single table of
arguments may be referred to by names instead.
-/

namespace PageManifest.Log

/-- What the places of a template are filled from. -/
structure Supply where
  /-- The arguments that have names, if a table of them was given. -/
  named : Option (List (Text × Argument))
  /-- What is still to be used, in order. -/
  waiting : List Argument

namespace Supply

/-- The supply of some arguments; a table that is alone and not empty gives names. -/
def ofArguments : List Argument → Supply
  | [.table (e :: entries)] => ⟨some (e :: entries), [.table (e :: entries)]⟩
  | arguments => ⟨none, arguments⟩

def next? (s : Supply) : Option (Argument × Supply) :=
  match s.waiting with
  | [] => none
  | a :: rest => some (a, { s with waiting := rest })

/-- Makes the argument of a name the only one that is still to be used. -/
def select? (s : Supply) : (name : Option Text) → Option Supply
  | none => some s
  | some name => do
      let entries ← s.named
      let a ← entries.lookup name
      some { s with waiting := [a] }

/-- Whether nothing is left that had to be used at the end of a template. -/
def isSpent (s : Supply) : Bool :=
  s.named.isSome || s.waiting.isEmpty

/-- Whether nothing is left that had to be used at the end of a place. -/
def isSettled (s : Supply) : Bool :=
  s.named.isNone || s.waiting.isEmpty

end Supply

/-- How a place is laid out, with its extents settled. -/
structure Layout where
  flags : Flags
  width : Nat
  precision : Option Nat
  deriving DecidableEq, Repr

namespace Layout

def cut (l : Layout) (t : Text) : Text :=
  match l.precision with
  | some n => t.take n
  | none => t

/-- A text widened to the width. -/
def text (l : Layout) (t : Text) : Text :=
  let fill := List.replicate (l.width - t.length) ' '
  if l.flags.left then t ++ fill else fill ++ t

/-- Digits behind a sign and a mark of their base, widened to the width. -/
def number (l : Layout) (negative : Bool) (mark digits : Text) : Text :=
  let sign := if negative then ['-']
    else if l.flags.plus then ['+']
    else if l.flags.blank then [' ']
    else []
  let head := sign ++ mark
  let missing := l.width - (head.length + digits.length)
  if l.flags.left then head ++ digits ++ List.replicate missing ' '
  else if l.flags.zeros then head ++ List.replicate missing '0' ++ digits
  else List.replicate missing ' ' ++ head ++ digits

/-- An integer with at least as many digits as the precision asks for. -/
def integer (l : Layout) (n : Int) (mark digits : Text) : Text :=
  let zeros := List.replicate (l.precision.getD 0 - digits.length) '0'
  l.number (n < 0) (if l.flags.alternate then mark else []) (zeros ++ digits)

/-- The digits of a size; the precision is six unless it is given. -/
def digits (l : Layout) (form : Form) (capitals : Bool) (size : Number.Binary) : Text :=
  let point := l.flags.alternate
  let mark := if capitals then 'E' else 'e'
  let precision := l.precision.getD 6
  let (num, den) := size.quotient
  match form with
  | .fixed => Number.fixed point precision num den
  | .scientific => Number.scientific point mark precision num den
  | .general => Number.general point mark precision num den

/-- An argument at a place of some kind, if it suits it. -/
def fill? (l : Layout) (kind : Kind) (a : Argument) : Option Text :=
  match kind with
  | .plain => some (l.text (l.cut a.plain))
  | .quoted => some (l.text (l.cut a.quoted))
  | .ascii => some (l.text (l.cut (Text.ascii a.quoted)))
  | .character => a.character?.map fun c => l.text [c]
  | .decimal => a.integerPart?.map fun n => l.integer n [] (Number.digits n.natAbs)
  | .based base mark =>
      a.integer?.map fun n =>
        let ds := Nat.toDigits base n.natAbs
        l.integer n ['0', mark] (if mark = 'X' then ds.map Char.toUpper else ds)
  | .number form capitals =>
      a.size?.map fun (negative, size) => l.number negative [] (l.digits form capitals size)

end Layout

namespace Place

/-- The extent of a place as an integer, which may have to be taken from the arguments. -/
def extent? (limit : Nat) : Extent → Supply → Option (Int × Supply)
  | .given n, s => some (n, s)
  | .taken, s => do
      let (a, s) ← s.next?
      let n ← a.integer?
      if limit < n.natAbs then none else some (n, s)

/-- The layout of a place.  A negative width turns to the left, a negative precision is zero. -/
def layout? (p : Place) (s : Supply) : Option (Layout × Supply) := do
  let (width, s) ← extent? widthLimit p.width s
  let flags := { p.flags with left := p.flags.left || width < 0 }
  match p.precision with
  | none => some (⟨flags, width.natAbs, none⟩, s)
  | some precision =>
      let (precision, s) ← extent? precisionLimit precision s
      some (⟨flags, width.natAbs, some precision.toNat⟩, s)

def fill? (p : Place) (s : Supply) : Option (Text × Supply) := do
  let s ← s.select? p.name
  let (layout, s) ← p.layout? s
  let (t, s) ← match p.kind with
    | none => some (['%'], s)
    | some kind => do
        let (a, s) ← s.next?
        let t ← layout.fill? kind a
        some (t, s)
  if s.isSettled then some (t, s) else none

end Place

def fillParts : List Part → Supply → Option Text
  | [], s => if s.isSpent then some [] else none
  | .character c :: parts, s => (fillParts parts s).map (c :: ·)
  | .place place :: parts, s =>
      match place.fill? s with
      | some (t, s) => (fillParts parts s).map (t ++ ·)
      | none => none

/-- A message; without arguments the template stands as it is. -/
def message? (template : Text) (arguments : List Argument) : Option Text :=
  if arguments.isEmpty then some template
  else do
    let parts ← parts? template
    fillParts parts (.ofArguments arguments)

end PageManifest.Log
