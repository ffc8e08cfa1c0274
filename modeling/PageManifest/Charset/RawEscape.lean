import PageManifest.Charset.Coding
import PageManifest.Text.Hex
import PageManifest.Text.Quoted

/-!
# Raw escapes

A coding that writes the characters of Latin-1 as they are and all others by their code
point behind a backslash.  Backslashes are not escaped themselves, so a text in which one
stands in front of a code point reads back as another text.
-/

namespace PageManifest.Charset.RawEscape

/-- The octets of a character. -/
def octets (c : Char) : Bytes :=
  if c.toNat < 0x100 then [UInt8.ofNat c.toNat]
  else (Text.escapeByCode c).map fun d => UInt8.ofNat d.toNat

def encode (t : Text) : Bytes :=
  t.flatMap octets

/-- What reading is in the middle of. -/
inductive Pending
  | nothing
  | backslash
  | digits (letter : Char) (missing value start : Nat)
  deriving DecidableEq, Repr

/-- The complaint about the octets from one place up to another. -/
def refusal (start stop : Nat) (reason : String) : String :=
  "'rawunicodeescape' codec can't decode bytes in position " ++ toString start ++ "-" ++
    toString (stop - 1) ++ ": " ++ reason

def truncated (letter : Char) : String :=
  if letter = 'u' then "truncated \\uXXXX escape" else "truncated \\UXXXXXXXX escape"

/-- The character of a code point that ends at a place. -/
def charOf (value start stop : Nat) : Except String Char :=
  if 0x110000 ≤ value then .error (refusal start stop "\\Uxxxxxxxx out of range")
  else if 0xd800 ≤ value ∧ value < 0xe000 then .error (refusal start stop "surrogate")
  else .ok (Char.ofNat value)

/-- Reads octets from a place on.  A backslash takes the octet behind it along. -/
def decodeFrom (pending : Pending) (place : Nat) : Bytes → Except String Text
  | [] =>
      match pending with
      | .nothing => .ok []
      | .backslash => .ok ['\\']
      | .digits letter _ _ start => .error (refusal start place (truncated letter))
  | b :: rest =>
      let c := Char.ofNat b.toNat
      match pending with
      | .nothing =>
          if c = '\\' then decodeFrom .backslash (place + 1) rest
          else (decodeFrom .nothing (place + 1) rest).map (c :: ·)
      | .backslash =>
          if c = 'u' then decodeFrom (.digits c 4 0 (place - 1)) (place + 1) rest
          else if c = 'U' then decodeFrom (.digits c 8 0 (place - 1)) (place + 1) rest
          else (decodeFrom .nothing (place + 1) rest).map fun t => '\\' :: c :: t
      | .digits letter missing value start =>
          match Text.hexValue? c with
          | none => .error (refusal start place (truncated letter))
          | some digit =>
              if 1 < missing then
                decodeFrom (.digits letter (missing - 1) (16 * value + digit) start) (place + 1)
                  rest
              else
                match charOf (16 * value + digit) start (place + 1) with
                | .error reason => .error reason
                | .ok d => (decodeFrom .nothing (place + 1) rest).map (d :: ·)

def coding : Coding :=
  ⟨fun t => .ok (encode t), decodeFrom .nothing 0⟩

-- What stands in front of a code point by itself is taken for its escape.
example : (coding.decode (encode "\\u0041".toList)).toOption = some ['A'] := by decide

end PageManifest.Charset.RawEscape
