import PageManifest.Text.Basic

/-!
# TOML values

A document is a table: keys with values, in the order in which they were written.
A table remembers how it came about, since that decides what may be added to it
later on.
-/

namespace PageManifest.Toml

/--
How a table came about: in one piece, by its header, below another header, or by a
dotted key.
-/
inductive Form
  | inline
  | header
  | implied
  | dotted
  deriving DecidableEq, Repr

/-- What a key can have for a value.  Dates and fractions are kept as they are written. -/
inductive Value
  | text (t : Text)
  | integer (n : Int)
  | boolean (b : Bool)
  | scalar (written : Text)
  | array (items : List Value)
  | table (form : Form) (entries : List (Text × Value))
  | rows (tables : List (List (Text × Value)))

abbrev Entries := List (Text × Value)

/-- Why a text is no document. -/
inductive Fault
  | malformed
  | keyTwice (key : Text)
  /-- A header for a table that dotted keys have made. -/
  | tableTwice
  deriving DecidableEq, Repr

namespace Entries

def replace (entries : Entries) (key : Text) (value : Value) : Entries :=
  entries.map fun (k, v) => if k = key then (k, value) else (k, v)

/-- Adds a key that must be new. -/
def add (key : Text) (value : Value) (entries : Entries) : Except Fault Entries :=
  if (entries.lookup key).isSome then .error (.keyTwice key)
  else .ok (entries ++ [(key, value)])

/--
Changes the table that a path leads to.  Missing tables on the way are made, with
`form`; a path through a list of tables goes on in the last of them.  A fault
names the key at which the path is blocked.
-/
def within (form : Form) (change : Entries → Except Fault Entries) :
    (path : List Text) → Entries → Except Fault Entries
  | [], entries => change entries
  | key :: path, entries =>
      match entries.lookup key with
      | none =>
          (within form change path []).map fun inner => entries ++ [(key, .table form inner)]
      | some (.table .inline _) => .error (.keyTwice key)
      | some (.table found inner) =>
          if form = .dotted ∧ found = .header then .error (.keyTwice key)
          else (within form change path inner).map fun inner =>
            replace entries key (.table found inner)
      | some (.rows tables) =>
          match tables.getLast? with
          | none => .error (.keyTwice key)
          | some row =>
              (within form change path row).map fun row =>
                replace entries key (.rows (tables.dropLast ++ [row]))
      | some _ => .error (.keyTwice key)

/-- Adds a value under a dotted key. -/
def put (path : List Text) (key : Text) (value : Value) : Entries → Except Fault Entries :=
  within .dotted (add key value) path

/-- Makes a table for a header; one that so far only lies above others may get its header. -/
def openTable (key : Text) (entries : Entries) : Except Fault Entries :=
  match entries.lookup key with
  | none => .ok (entries ++ [(key, .table .header [])])
  | some (.table .implied inner) => .ok (replace entries key (.table .header inner))
  | some (.table .dotted _) => .error .tableTwice
  | some _ => .error (.keyTwice key)

/-- Makes another table of a list of tables. -/
def openRow (key : Text) (entries : Entries) : Except Fault Entries :=
  match entries.lookup key with
  | none => .ok (entries ++ [(key, .rows [[]])])
  | some (.rows tables) => .ok (replace entries key (.rows (tables ++ [[]])))
  | some _ => .error (.keyTwice key)

end Entries

end PageManifest.Toml
