import PageManifest.Text.Hex

/-!
# JSON

Values are written in ASCII, on one line or with one line for each element.
-/

namespace PageManifest

inductive Json
  | text (t : Text)
  | number (n : Int)
  | list (items : List Json)
  | record (fields : List (String × Json))

namespace Json

def escapeUnit (unit : Nat) : Text :=
  '\\' :: 'u' :: Text.hexDigits 4 unit

/-- A character as it is written inside a string. -/
def writtenChar (c : Char) : Text :=
  let n := c.toNat
  if c = '"' || c = '\\' then ['\\', c]
  else if c = '\n' then ['\\', 'n']
  else if c = '\r' then ['\\', 'r']
  else if c = '\t' then ['\\', 't']
  else if n = 0x08 then ['\\', 'b']
  else if n = 0x0c then ['\\', 'f']
  else if 0x20 ≤ n && n < 0x7f then [c]
  else if n < 0x10000 then escapeUnit n
  else
    escapeUnit (0xd800 + (n - 0x10000) / 0x400) ++ escapeUnit (0xdc00 + (n - 0x10000) % 0x400)

def writtenText (t : Text) : Text :=
  '"' :: t.flatMap writtenChar ++ ['"']

/-- Texts with a separator between them. -/
def separated (sep : Text) : List Text → Text
  | [] => []
  | [t] => t
  | t :: ts => t ++ sep ++ separated sep ts

/-- A line break and the blanks that a line of some depth starts with. -/
def lineAt (depth : Nat) : Text :=
  '\n' :: List.replicate (2 * depth) ' '

/-- Elements between brackets, on one line or on a line each. -/
def bracketed (depth : Option Nat) (opening closing : Char) (elements : List Text) : Text :=
  match elements, depth with
  | [], _ => [opening, closing]
  | _, none => opening :: separated [',', ' '] elements ++ [closing]
  | _, some depth =>
      opening :: lineAt (depth + 1) ++ separated (',' :: lineAt (depth + 1)) elements ++
        lineAt depth ++ [closing]

mutual

/-- A value as it is written; with a depth, its elements stand on lines of their own. -/
def written (depth : Option Nat) : Json → Text
  | text t => writtenText t
  | number n => (toString n).toList
  | list items => bracketed depth '[' ']' (writtenItems (depth.map (· + 1)) items)
  | record fields => bracketed depth '\x7b' '\x7d' (writtenFields (depth.map (· + 1)) fields)

/-- The elements of a list as they are written. -/
def writtenItems (depth : Option Nat) : List Json → List Text
  | [] => []
  | item :: items => written depth item :: writtenItems depth items

/-- The fields of a record as they are written. -/
def writtenFields (depth : Option Nat) : List (String × Json) → List Text
  | [] => []
  | (name, value) :: fields =>
      (writtenText name.toList ++ ':' :: ' ' :: written depth value) :: writtenFields depth fields

end

/-- A value on one line. -/
def compact (j : Json) : Text :=
  written none j

/-- A value with a line for each element. -/
def indented (j : Json) : Text :=
  written (some 0) j

end Json

end PageManifest
