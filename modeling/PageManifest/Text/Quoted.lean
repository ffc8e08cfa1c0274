import PageManifest.Text.Hex
import PageManifest.Text.Printable

/-!
# Quoted text in messages

Messages show a text between quotes, with escapes for whatever could not be told
apart or printed otherwise.  The single quote is the default; the double quote is
taken when that avoids an escape.
-/

namespace PageManifest.Text

/-- The escape that names a character by its code point, in the shortest of three widths. -/
def escapeByCode (c : Char) : Text :=
  let n := c.toNat
  if n < 0x100 then '\\' :: 'x' :: hexDigits 2 n
  else if n < 0x10000 then '\\' :: 'u' :: hexDigits 4 n
  else '\\' :: 'U' :: hexDigits 8 n

/-- The double quote for a text with single quotes only, the single quote otherwise. -/
def quoteFor (t : Text) : Char :=
  if t.contains '\'' && !t.contains '"' then '"' else '\''

/-- One character as it is written between two `quote` characters. -/
def quoteChar (quote c : Char) : Text :=
  if c = quote || c = '\\' then ['\\', c]
  else if c = '\n' then ['\\', 'n']
  else if c = '\r' then ['\\', 'r']
  else if c = '\t' then ['\\', 't']
  else if isPrintable c then [c]
  else escapeByCode c

def quoted (t : Text) : Text :=
  let q := quoteFor t
  q :: t.flatMap (quoteChar q) ++ [q]

/-- A text with escapes for the characters beyond ASCII. -/
def ascii (t : Text) : Text :=
  t.flatMap fun c => if c.toNat < 0x80 then [c] else escapeByCode c

def quotedString (s : String) : String :=
  String.ofList (quoted s.toList)

end PageManifest.Text
