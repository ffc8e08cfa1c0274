import PageManifest.Diff.Script

/-!
# Hunks

A script is shown by its changes, each with a few items of context on either
side.  Changes whose contexts meet share a hunk.
-/

namespace PageManifest.Diff

inductive Edit (α : Type)
  | kept (item : α)
  | removed (item : α)
  | added (item : α)
  deriving DecidableEq, Repr

namespace Edit

variable {α : Type}

/-- The item as part of the first sequence. -/
def old? : Edit α → Option α
  | kept item => some item
  | removed item => some item
  | added _ => none

/-- The item as part of the second sequence. -/
def new? : Edit α → Option α
  | kept item => some item
  | removed _ => none
  | added item => some item

/-- The edits of a segment: what goes, then what comes. -/
def ofSegment : Segment α → List (Edit α)
  | .same items => items.map kept
  | .changed old new => old.map removed ++ new.map added

end Edit

/-- A run of edits, and how many items of either sequence lie in front of it. -/
structure Hunk (α : Type) where
  oldStart : Nat
  newStart : Nat
  edits : List (Edit α)
  deriving DecidableEq, Repr

namespace Hunk

variable {α : Type}

/-- The items of the first sequence. -/
def old (h : Hunk α) : List α :=
  h.edits.filterMap Edit.old?

/-- The items of the second sequence. -/
def new (h : Hunk α) : List α :=
  h.edits.filterMap Edit.new?

def append (h : Hunk α) (edits : List (Edit α)) : Hunk α :=
  ⟨h.oldStart, h.newStart, h.edits ++ edits⟩

def changes (h : Hunk α) : Bool :=
  h.edits.any fun edit => match edit with
    | .kept _ => false
    | _ => true

def opening (context oldStart newStart : Nat) (run : List α) : Hunk α :=
  let skipped := run.length - context
  ⟨oldStart + skipped, newStart + skipped, (run.drop skipped).map .kept⟩

/--
The hunks of a script whose first part is already in `h`.  A run longer than two
contexts ends a hunk and starts another.
-/
def ofSegments (context : Nat) (h : Hunk α) : List (Segment α) → List (Hunk α)
  | [] => if h.changes then [h] else []
  | .changed old new :: rest =>
      ofSegments context (h.append (Edit.ofSegment (.changed old new))) rest
  | .same run :: rest =>
      if rest.isEmpty then
        if h.changes then [h.append ((run.take context).map .kept)] else []
      else if 2 * context < run.length then
        h.append ((run.take context).map .kept) ::
          ofSegments context
            (opening context (h.oldStart + h.old.length) (h.newStart + h.new.length) run) rest
      else ofSegments context (h.append (run.map .kept)) rest

def ofScript (context : Nat) : List (Segment α) → List (Hunk α)
  | .same run :: rest => ofSegments context (opening context 0 0 run) rest
  | script => ofSegments context ⟨0, 0, []⟩ script

end Hunk

end PageManifest.Diff
