import PageManifest.Text.Quoted

/-!
# Faults of encoding and decoding

A fault names the coding, the place, what stands there and why it does not code.
-/

namespace PageManifest.Charset

/-- Why octets are no encoded text. -/
inductive Undecodable
  | badStart
  | badContinuation
  | endOfData
  | truncated
  | loneTrail
  | badTrail
  | beyondUnicode
  | surrogate
  | beyondAscii
  | unassigned
  deriving DecidableEq, Repr

/-- The wording of a reason. -/
def Undecodable.message : Undecodable → String
  | badStart => "invalid start byte"
  | badContinuation => "invalid continuation byte"
  | endOfData => "unexpected end of data"
  | truncated => "truncated data"
  | loneTrail => "illegal encoding"
  | badTrail => "illegal UTF-16 surrogate"
  | beyondUnicode => "code point not in range(0x110000)"
  | surrogate => "code point in surrogate code point range(0xd800, 0xe000)"
  | beyondAscii => "ordinal not in range(128)"
  | unassigned => "character maps to <undefined>"

/-- Octets that are no encoded text. -/
structure DecodeFault where
  coding : String
  start : Nat
  octets : Bytes
  reason : Undecodable
  deriving DecidableEq, Repr

/-- A single octet is shown, a longer run is only placed. -/
def DecodeFault.message (f : DecodeFault) : String :=
  let place := match f.octets with
    | [b] => "byte 0x" ++ String.ofList (Text.hexOctet b) ++ " in position " ++ toString f.start
    | bs => "bytes in position " ++ toString f.start ++ "-" ++ toString (f.start + bs.length - 1)
  "'" ++ f.coding ++ "' codec can't decode " ++ place ++ ": " ++ f.reason.message

/-- Why a character has no encoded form. -/
inductive Unencodable
  | beyond (limit : Nat)
  | unassigned
  deriving DecidableEq, Repr

/-- The wording of a reason. -/
def Unencodable.message : Unencodable → String
  | beyond limit => "ordinal not in range(" ++ toString limit ++ ")"
  | unassigned => "character maps to <undefined>"

/-- A run of characters without an encoded form. -/
structure EncodeFault where
  coding : String
  start : Nat
  chars : Text
  reason : Unencodable
  deriving DecidableEq, Repr

/-- A single character is shown by its code point, a longer run is only placed. -/
def EncodeFault.message (f : EncodeFault) : String :=
  let place := match f.chars with
    | [c] => "character '" ++ String.ofList (Text.escapeByCode c) ++ "' in position " ++
        toString f.start
    | cs => "characters in position " ++ toString f.start ++ "-" ++
        toString (f.start + cs.length - 1)
  "'" ++ f.coding ++ "' codec can't encode " ++ place ++ ": " ++ f.reason.message

end PageManifest.Charset
