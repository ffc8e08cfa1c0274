import PageManifest.Toml.Scalar

/-!
# Statements

A document is written as statements, one a line: a key with its value, the header
of a table, or the header of one more table of a list.
-/

namespace PageManifest.Toml

/-- A statement; a dotted key is a path and the last key. -/
inductive Statement
  | pair (path : List Text) (key : Text) (value : Value)
  | header (path : List Text) (key : Text)
  | row (path : List Text) (key : Text)

/-- Characters of a key without quotes. -/
def isBareKeyChar (c : Char) : Bool :=
  c.isAlphanum || c == '-' || c == '_'

/--
A part of a key without quotes, and the rest behind it and the blanks after it.  A tab
between its characters belongs to it, but no space may stand there.
-/
def bareKeyPart (t : Text) : Except Fault (Text × Text) :=
  let run := t.takeWhile fun c => isBareKeyChar c || isSpace c
  let key := Text.trimEnd run
  if key.isEmpty || key.contains ' ' then .error .malformed else .ok (key, t.drop run.length)

/-- One part of a key, and the rest behind it and the blanks after it. -/
def keyPart (t : Text) : Except Fault (Text × Text) :=
  let quoted (quote : Char) (t : Text) : Except Fault (Text × Text) :=
    match string quote t with
    | .error fault => .error fault
    | .ok (kind, key, rest) => if kind.multi then .error .malformed else .ok (key, rest)
  let read := match t.dropWhile isSpace with
    | '"' :: t => quoted '"' t
    | '\'' :: t => quoted '\'' t
    | t => bareKeyPart t
  read.map fun (key, rest) => (key, rest.dropWhile isSpace)

/-- A key as its parts in reverse; it has no more parts than the text has characters. -/
def keyParts : (fuel : Nat) → (seen : List Text) → Text → Except Fault (List Text × Text)
  | 0, _, _ => .error .malformed
  | fuel + 1, seen, t =>
      match keyPart t with
      | .error fault => .error fault
      | .ok (key, '.' :: rest) => keyParts fuel (key :: seen) rest
      | .ok (key, rest) => .ok (key :: seen, rest)

/-- A dotted key as its path and its last part, and the rest. -/
def key (t : Text) : Except Fault (List Text × Text × Text) :=
  match keyParts (t.length + 1) [] t with
  | .error fault => .error fault
  | .ok ([], _) => .error .malformed
  | .ok (last :: path, rest) => .ok (path.reverse, last, rest)

/-- What follows a comment, which must be free of controls. -/
def afterComment (t : Text) : Except Fault Text :=
  if (t.takeWhile (· ≠ '\n')).any isControl then .error .malformed
  else .ok (t.dropWhile (· ≠ '\n'))

/-- Skips blanks, line feeds and comments, as many as the text has characters. -/
def skipBlanks : (fuel : Nat) → Text → Except Fault Text
  | 0, t => .ok t
  | fuel + 1, t =>
      match t.dropWhile isSpaceOrBreak with
      | '#' :: t =>
          match afterComment t with
          | .error fault => .error fault
          | .ok t => skipBlanks fuel t
      | t => .ok t

/-- Skips all blanks, line feeds and comments. -/
def skipAllBlanks (t : Text) : Except Fault Text :=
  skipBlanks (t.length + 1) t

/-- Skips the equals sign between a key and its value, with the blanks around it. -/
def afterEquals (t : Text) : Except Fault Text :=
  match t.dropWhile isSpace with
  | '=' :: t => .ok (t.dropWhile isSpace)
  | _ => .error .malformed

/-- Whether a character ends a number or a date. -/
def endsWord (c : Char) : Bool :=
  isSpaceOrBreak c || c == '#' || c == ',' || c == ']' || c == '}'

mutual

/-- Reads a value, nested no deeper than `fuel`. -/
def value : (fuel : Nat) → Text → Except Fault (Value × Text)
  | 0, _ => .error .malformed
  | fuel + 1, t =>
      match t with
      | '"' :: t => (string '"' t).map fun (_, s, rest) => (.text s, rest)
      | '\'' :: t => (string '\'' t).map fun (_, s, rest) => (.text s, rest)
      | '[' :: t => (items fuel t).map fun (items, rest) => (.array items, rest)
      | '{' :: t =>
          (pairs fuel [] t).map fun (entries, rest) => (.table .inline entries, rest)
      | 't' :: 'r' :: 'u' :: 'e' :: rest => .ok (.boolean true, rest)
      | 'f' :: 'a' :: 'l' :: 's' :: 'e' :: rest => .ok (.boolean false, rest)
      | t =>
          let word := t.takeWhile (!endsWord ·)
          (wordValue word).map fun v => (v, t.drop word.length)

/-- Reads the items of an array up to its closing bracket. -/
def items : (fuel : Nat) → Text → Except Fault (List Value × Text)
  | 0, _ => .error .malformed
  | fuel + 1, t =>
      match skipAllBlanks t with
      | .error fault => .error fault
      | .ok (']' :: rest) => .ok ([], rest)
      | .ok t =>
          match value fuel t with
          | .error fault => .error fault
          | .ok (item, t) =>
              match skipAllBlanks t with
              | .error fault => .error fault
              | .ok (']' :: rest) => .ok ([item], rest)
              | .ok (',' :: t) => (items fuel t).map fun (more, rest) => (item :: more, rest)
              | .ok _ => .error .malformed

/--
Reads the entries of a table in braces up to its closing brace.  They may stand on
lines of their own, and a comma may follow the last of them.
-/
def pairs : (fuel : Nat) → Entries → Text → Except Fault (Entries × Text)
  | 0, _, _ => .error .malformed
  | fuel + 1, entries, t =>
      match skipAllBlanks t with
      | .error fault => .error fault
      | .ok ('}' :: rest) => .ok (entries, rest)
      | .ok t =>
          match key t with
          | .error fault => .error fault
          | .ok (path, last, t) =>
              match afterEquals t with
              | .error fault => .error fault
              | .ok t =>
                  match value fuel t with
                  | .error fault => .error fault
                  | .ok (v, t) =>
                      match entries.put path last v with
                      | .error fault => .error fault
                      | .ok entries =>
                          match skipAllBlanks t with
                          | .error fault => .error fault
                          | .ok ('}' :: rest) => .ok (entries, rest)
                          | .ok (',' :: t) => pairs fuel entries t
                          | .ok _ => .error .malformed

end

/-- What follows the end of a line, in front of which only blanks and a comment may stand. -/
def afterLine (t : Text) : Except Fault Text :=
  match t.dropWhile isSpace with
  | [] => .ok []
  | '\n' :: rest => .ok rest
  | '\r' :: '\n' :: rest => .ok rest
  | '#' :: t => afterComment t
  | _ => .error .malformed

/--
Reads the statement that a text starts with.  In the header of a list the place of
the second closing bracket is passed over, whatever stands there.
-/
def statement (t : Text) : Except Fault (Statement × Text) :=
  let finish (s : Statement) (t : Text) := (afterLine t).map fun rest => (s, rest)
  match t with
  | '[' :: '[' :: t =>
      match key t with
      | .error fault => .error fault
      | .ok (path, last, ']' :: rest) => finish (.row path last) (rest.drop 1)
      | .ok _ => .error .malformed
  | '[' :: t =>
      match key t with
      | .error fault => .error fault
      | .ok (path, last, ']' :: rest) => finish (.header path last) rest
      | .ok _ => .error .malformed
  | t =>
      match key t with
      | .error fault => .error fault
      | .ok (path, last, rest) =>
          match afterEquals rest with
          | .error fault => .error fault
          | .ok rest =>
              match value (2 * rest.length + 2) rest with
              | .error fault => .error fault
              | .ok (v, rest) => finish (.pair path last v) rest

end PageManifest.Toml
