import PageManifest.Text.Hex

/-!
# Writing TOML

Texts are written as basic strings on one line.  Controls are escaped, all else
stands for itself.
-/

namespace PageManifest.Toml

/-- One character as it is written in a basic string. -/
def writtenChar (c : Char) : Text :=
  if c = '"' then ['\\', '"']
  else if c = '\\' then ['\\', '\\']
  else if c = '\x08' then ['\\', 'b']
  else if c = '\t' then ['\\', 't']
  else if c = '\n' then ['\\', 'n']
  else if c = '\x0c' then ['\\', 'f']
  else if c = '\r' then ['\\', 'r']
  else if c.toNat < 0x20 ∨ c.toNat = 0x7f then '\\' :: 'u' :: Text.hexDigits 4 c.toNat
  else [c]

/-- A text as a basic string. -/
def writtenText (t : Text) : Text :=
  '"' :: t.flatMap writtenChar ++ ['"']

/-- A line that gives a key a text for its value. -/
def writtenPair (key : Text) (value : Text) : Text :=
  key ++ [' ', '=', ' '] ++ writtenText value ++ ['\n']

/-- A table under its header. -/
def writtenTable (name : Text) (entries : List (Text × Text)) : Text :=
  '[' :: name ++ [']', '\n'] ++ entries.flatMap fun (key, value) => writtenPair key value

def writtenComment (t : Text) : Text :=
  '#' :: ' ' :: t ++ ['\n']

end PageManifest.Toml
