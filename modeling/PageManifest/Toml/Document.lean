import PageManifest.Toml.Statement

/-!
# TOML documents

Statements are taken in one after the other.  What is written twice within the table
of a header is told apart from every other fault.
-/

namespace PageManifest.Toml

/--
A document under construction: its entries, the table that keys go to, and the
last header that did not lie below the header in front of it.
-/
structure Draft where
  entries : Entries
  current : List Text
  top : List Text

namespace Draft

/-- A document without any statement. -/
def empty : Draft :=
  ⟨[], [], []⟩

/-- Whether a table lies below the last top header. -/
def isBelowTop (d : Draft) (table : List Text) : Bool :=
  !d.top.isEmpty && d.top.isPrefixOf table && d.top.length < table.length

def headerFault (d : Draft) (table : List Text) (fault : Fault) : Fault :=
  if d.isBelowTop table then fault else .malformed

/-- Goes on with a table whose header has been taken in. -/
def enter (d : Draft) (table : List Text) (entries : Entries) : Draft :=
  ⟨entries, table, if d.isBelowTop table then d.top else table⟩

def take (d : Draft) : Statement → Except Fault Draft
  | .pair path key value =>
      match Entries.within .implied (Entries.put path key value) d.current d.entries with
      | .ok entries => .ok { d with entries := entries }
      | .error fault => .error (if d.current.isEmpty then .malformed else fault)
  | .header path key =>
      let table := path ++ [key]
      match Entries.within .implied (Entries.openTable key) path d.entries with
      | .ok entries => .ok (d.enter table entries)
      | .error fault => .error (d.headerFault table fault)
  | .row path key =>
      let table := path ++ [key]
      match Entries.within .implied (Entries.openRow key) path d.entries with
      | .ok entries => .ok (d.enter table entries)
      | .error fault => .error (d.headerFault table fault)

/-- Takes in the statements of a text, of which there are no more than characters. -/
def takeAll : (fuel : Nat) → Draft → Text → Except Fault Draft
  | 0, d, _ => .ok d
  | fuel + 1, d, t =>
      match skipAllBlanks t with
      | .error fault => .error fault
      | .ok [] => .ok d
      | .ok t =>
          match statement t with
          | .error fault => .error fault
          | .ok (s, rest) =>
              match d.take s with
              | .error fault => .error fault
              | .ok d => takeAll fuel d rest

end Draft

def read (t : Text) : Except Fault Entries :=
  (Draft.empty.takeAll (t.length + 1) t).map Draft.entries

end PageManifest.Toml
