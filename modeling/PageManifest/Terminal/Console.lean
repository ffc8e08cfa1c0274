import PageManifest.Diff.Preview

/-!
# The console

Program output is data, which is always written, or status, which a quiet console
leaves out.  A console without colour writes no control sequences at all.  Commands
say what there is to write, and only the console knows how it is shown.
-/

namespace PageManifest.Terminal

inductive Piece
  | plain (t : Text)
  | painted (paint : Paint) (t : Text)
  deriving DecidableEq, Repr

/-- Something to write. -/
inductive Message
  | text (t : Text)
  | line (pieces : List Piece)
  | diff (patch : Text)
  | status (document message : Text) (tint : Option Tint)
  deriving DecidableEq, Repr

namespace Message

/-- A line of plain data. -/
def ofLine (t : Text) : Message :=
  line [.plain t]

/-- Whether a message is status rather than data. -/
def isStatus : Message → Bool
  | status _ _ _ => true
  | _ => false

end Message

/-- How output is shown. -/
structure Console where
  color : Bool
  verbosity : Int
  deriving DecidableEq, Repr

namespace Console

/-- The console that is used where nothing else is asked for. -/
def standard : Console :=
  ⟨true, 0⟩

/-- Whether status lines are left out. -/
def quiet (c : Console) : Bool :=
  c.verbosity < 0

def shown (c : Console) (t : Text) : Text :=
  if c.color then t else plain t

/-- A painted text, as far as the console has colours. -/
def styled (c : Console) (paint : Paint) (t : Text) : Text :=
  if c.color then paint.apply t else t

def line (c : Console) (t : Text) : Text :=
  c.shown t ++ ['\n']

def status (c : Console) (document message : Text) (tint : Option Tint) : Text :=
  if c.quiet then []
  else
    let t := document ++ ": ".toList ++ message
    match tint with
    | some tint => c.line (c.styled (.ofTint tint) t)
    | none => c.line t

def diff (c : Console) (patch : Text) : Text :=
  c.shown (Diff.previewText patch Diff.previewWidth c.color)

/-- A piece of a line as it is written. -/
def piece (c : Console) : Piece → Text
  | .plain t => t
  | .painted paint t => c.styled paint t

def written (c : Console) : Message → Text
  | .text t => c.shown t
  | .line pieces => c.line (pieces.flatMap c.piece)
  | .diff patch => c.diff patch
  | .status document message tint => c.status document message tint

/-- A warning, with or without a line break. -/
def warning (c : Console) (t : Text) : Text :=
  c.shown ((Paint.ofColor .yellow).apply t)

/-- An error, with or without a line break. -/
def error (c : Console) (t : Text) : Text :=
  c.shown ((Paint.ofColor .brightRed).apply t)

/-- The message of a failed command, without its line break. -/
def failure (c : Console) (message : Text) : Text :=
  c.error (c.styled (.ofColor .brightRed) ("Error: ".toList ++ message))

end Console

end PageManifest.Terminal
