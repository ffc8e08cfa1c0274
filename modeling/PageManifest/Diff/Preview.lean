import PageManifest.Diff.Unified
import PageManifest.Terminal.Style

/-!
# Previews of diffs

A preview shows a diff line by line.  Payloads make very long lines, so lines are
cut, and colours tell what goes and what comes.
-/

namespace PageManifest.Diff

/-- How much of a line is shown. -/
def previewWidth : Int := 160

/-- A line cut to a width, with a note of what is left out; no positive width, no cut. -/
def shorten (line : Text) (width : Int) : Text :=
  if width ≤ 0 ∨ (line.length : Int) ≤ width then line
  else
    line.take width.toNat ++
      ("... [" ++ toString (line.length - width.toNat) ++ " more chars]").toList

def penFor (line : Text) : Terminal.Pen :=
  if "--- ".toList.isPrefixOf line || "+++ ".toList.isPrefixOf line then .bold
  else
    match line.head? with
    | some '@' => .ofColor .cyan
    | some '-' => .ofColor .red
    | some '+' => .ofColor .green
    | _ => .ofColor .brightBlack

/-- A line without the carriage returns and line feeds at its end. -/
def withoutLineEnd (line : Text) : Text :=
  (line.reverse.dropWhile fun c => c == '\r' || c == '\n').reverse

def preview (lines : List Text) (width : Int) (color : Bool) : Text :=
  lines.flatMap fun line =>
    let shown := shorten (withoutLineEnd line) width
    (if color then (penFor shown).draw shown else shown) ++ ['\n']

def previewText (diff : Text) (width : Int) (color : Bool) : Text :=
  preview ((Text.lines diff).map Text.withoutBreak) width color

end PageManifest.Diff
