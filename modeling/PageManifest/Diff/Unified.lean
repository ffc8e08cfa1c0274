import PageManifest.Diff.Hunk
import PageManifest.Text.Lines

/-!
# Unified diffs

A diff of two texts is a pair of header lines and the hunks of their lines.  Every
line of a hunk keeps its own terminator behind a mark that tells whether it stays,
goes or comes.
-/

namespace PageManifest.Diff

/-- How many unchanged lines are shown around a change. -/
def contextLines : Nat := 3

/-- A range of lines: its first line, and its length where that is not one. -/
def rangeText (start length : Nat) : String :=
  if length = 1 then toString (start + 1)
  else toString (if length = 0 then start else start + 1) ++ "," ++ toString length

/-- A line with its mark. -/
def Edit.text : Edit Text → Text
  | kept line => ' ' :: line
  | removed line => '-' :: line
  | added line => '+' :: line

/-- The line in front of a hunk, which tells where it belongs. -/
def Hunk.header (h : Hunk Text) : String :=
  "@@ -" ++ rangeText h.oldStart h.old.length ++ " +" ++ rangeText h.newStart h.new.length ++
    " @@\n"

def Hunk.text (h : Hunk Text) : Text :=
  h.header.toList ++ h.edits.flatMap Edit.text

def hunks (before after : Text) : List (Hunk Text) :=
  Hunk.ofScript contextLines (script (Text.lines before) (Text.lines after))

/-- The two lines in front of all hunks. -/
def fileHeader (path : String) : Text :=
  ("--- " ++ path ++ " (current)\n+++ " ++ path ++ " (updated)\n").toList

/-- The diff of two versions of a file; it is empty when they have the same lines. -/
def unified (before after : Text) (path : String) : Text :=
  match hunks before after with
  | [] => []
  | hs => fileHeader path ++ hs.flatMap Hunk.text

end PageManifest.Diff
