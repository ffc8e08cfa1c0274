import PageManifest.Diff.Script

/-!
# Similar words

Words are as similar as the share of their characters that a comparison of the two
leaves unchanged.  Somebody who mistypes a word is offered those that come close.
-/

namespace PageManifest.Diff

/-- How many items a script leaves unchanged. -/
def unchanged {α : Type} : List (Segment α) → Nat
  | [] => 0
  | .same items :: rest => items.length + unchanged rest
  | .changed _ _ :: rest => unchanged rest

/-- A word that might be meant: its unchanged characters, out of all those of both words. -/
structure Candidate where
  word : String
  shared : Nat
  total : Nat
  deriving DecidableEq, Repr

namespace Candidate

/-- Compares a known word with one that was typed. -/
def rate (typed word : String) : Candidate :=
  ⟨word, unchanged (script word.toList typed.toList), word.length + typed.length⟩

/-- Whether a word is close enough: three fifths of the characters are unchanged. -/
def isClose (c : Candidate) : Bool :=
  3 * c.total ≤ 10 * c.shared

/-- Whether a word comes at least as close as another; words that tie go by their letters. -/
def isCloser (c d : Candidate) : Bool :=
  d.shared * c.total < c.shared * d.total ||
    (d.shared * c.total == c.shared * d.total && decide (d.word ≤ c.word))

end Candidate

/-- How many words are offered. -/
def offerLimit : Nat := 3

/-- The closest of some words, in the order of their letters. -/
def similar (typed : String) (words : List String) : List String :=
  let close := (words.map (Candidate.rate typed)).filter Candidate.isClose
  (((close.mergeSort Candidate.isCloser).take offerLimit).map Candidate.word).mergeSort

end PageManifest.Diff
