import PageManifest.Log.Record
import PageManifest.Terminal.Style

/-!
# Showing log records

Records of a severity that is asked for are shown one after the other, coloured by
severity.  Where routine records are asked for too, they tell which part of the program
they come from; the letter N stands for a place within that part.
-/

namespace PageManifest.Log

/-- Which records are shown, and how. -/
structure Setup where
  threshold : Int
  color : Bool
  deriving DecidableEq, Repr

/-- The pens of severities; the first severity reached counts. -/
def pens : List (Level × Terminal.Pen) :=
  [(.critical, .ofColor .brightRed), (.error, .ofColor .red), (.warning, .ofColor .yellow),
   (.info, .ofColor .green), (.debug, .ofColor .brightBlack), (.trace, .ofColor .blue)]

def penOf (severity : Int) : Terminal.Pen :=
  match pens.find? fun (level, _) => level.severity ≤ severity with
  | some (_, pen) => pen
  | none => .dim

namespace Setup

/-- Whether a record is shown; severities that are not positive never are. -/
def shows (s : Setup) (severity : Int) : Bool :=
  0 < severity && s.threshold ≤ severity

def text (s : Setup) (r : Record) : Text :=
  let origin := if Level.info.severity ≤ s.threshold then "" else "[" ++ r.origin ++ ":N] "
  ("[" ++ severityName r.severity ++ "] " ++ origin ++ r.text).toList

def written (s : Setup) (r : Record) : Text :=
  if s.shows r.severity then
    (if s.color then (penOf r.severity).draw (s.text r) else s.text r) ++ ['\n']
  else []

end Setup

end PageManifest.Log
