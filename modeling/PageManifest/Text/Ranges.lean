import PageManifest.Text.Hex

/-!
# Sets of characters given by ranges

Large character classes are written down as lines of hexadecimal ranges,
`30-39 41-5a 5f`, and read once into an array of bounds.
-/

namespace PageManifest.Text

/-- A class of characters as inclusive bounds on their code points. -/
structure Ranges where
  bounds : Array (Nat × Nat)

namespace Ranges

/-- Reads one range, `lo-hi`, or a single code point. -/
def readBound (word : Text) : Nat × Nat :=
  let lo := word.takeWhile (· != '-')
  match word.dropWhile (· != '-') with
  | [] => (hexNumber lo, hexNumber lo)
  | _ :: hi => (hexNumber lo, hexNumber hi)

/-- Splits a line of ranges at its spaces; `word` holds the current one in reverse. -/
def readBounds (word : Text) (acc : Array (Nat × Nat)) : Text → Array (Nat × Nat)
  | [] => if word.isEmpty then acc else acc.push (readBound word.reverse)
  | ' ' :: rest =>
      readBounds [] (if word.isEmpty then acc else acc.push (readBound word.reverse)) rest
  | c :: rest => readBounds (c :: word) acc rest

/-- The class that lines of ranges describe. -/
def ofLines (lines : List String) : Ranges :=
  ⟨lines.foldl (fun acc line => readBounds [] acc line.toList) #[]⟩

/-- Whether a character lies in one of the ranges. -/
def contains (r : Ranges) (c : Char) : Bool :=
  r.bounds.any fun (lo, hi) => lo ≤ c.toNat && c.toNat ≤ hi

end Ranges

end PageManifest.Text
