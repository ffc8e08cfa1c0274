import PageManifest.Charset.Codec
import PageManifest.Charset.Names
import PageManifest.Platform

/-!
# Charsets

A charset is what a document encoding, given by name, stands for: a coding that is
written out here, one that the platform supplies, or no text coding at all.  Using a
charset of the last kind fails, while naming it does not.
-/

namespace PageManifest

/--
What an encoding name stands for.  A transformation turns octets into octets, an unknown
name stands for nothing, and neither does one with a NUL in it.
-/
inductive Charset
  | codec (k : Charset.Codec)
  | supplied (coding : Charset.Coding)
  | transform (label : String)
  | unknown (label : String)
  | withNul

namespace Charset

/-- Why a charset could not be used. -/
inductive Fault
  | undecodable (fault : DecodeFault)
  | unencodable (fault : EncodeFault)
  | refused (reason : String)
  | noTextCoding (label : String) (verb : String)
  | unknownCoding (label : String)
  | nulInName
  deriving DecidableEq, Repr

def Fault.message : Fault → String
  | undecodable fault => fault.message
  | unencodable fault => fault.message
  | refused reason => reason
  | noTextCoding label verb =>
      Text.quotedString label ++ " is not a text encoding; use codecs." ++ verb ++
        "() to handle arbitrary codecs"
  | unknownCoding label => "unknown encoding: " ++ label
  | nulInName => "embedded null character"

/-- The text coding of a canonical name, if it is written out here. -/
def codec? : String → Option Codec
  | "ascii" => some .ascii
  | "iso8859-1" => some .latin1
  | "cp1252" => some .western
  | "utf-8" => some .utf8
  | "utf-8-sig" => some .utf8Marked
  | "utf-16" => some .utf16
  | "utf-16-le" => some (.utf16Fixed .little)
  | "utf-16-be" => some (.utf16Fixed .big)
  | "utf-32" => some .utf32
  | "utf-32-le" => some (.utf32Fixed .little)
  | "utf-32-be" => some (.utf32Fixed .big)
  | _ => none

/-- Canonical names of transformations between octets, which code no text. -/
def transforms : List String :=
  ["base64", "bz2", "hex", "quopri", "rot-13", "uu", "zlib"]

/-- What a name stands for; every canonical name that is no transformation names a text coding. -/
def ofName [Platform] (name : String) : Charset :=
  if name.toList.contains '\x00' then .withNul
  else
    match canonicalName? name with
    | none => .unknown name
    | some canonical =>
        match codec? canonical with
        | some k => .codec k
        | none =>
            if transforms.contains canonical then .transform name
            else .supplied (Platform.coding canonical)

def encode (charset : Charset) (t : Text) : Except Fault Bytes :=
  match charset with
  | codec k => (k.encode t).mapError .unencodable
  | supplied coding => (coding.encode t).mapError .refused
  | transform label => .error (.noTextCoding label "encode")
  | unknown label => .error (.unknownCoding label)
  | withNul => .error .nulInName

/-- Decodes octets.  No octets are the empty text whatever the coding. -/
def decode (charset : Charset) (bytes : Bytes) : Except Fault Text :=
  match charset with
  | withNul => .error .nulInName
  | codec k => (k.decode bytes).mapError .undecodable
  | supplied coding =>
      if bytes.isEmpty then .ok [] else (coding.decode bytes).mapError .refused
  | transform label => if bytes.isEmpty then .ok [] else .error (.noTextCoding label "decode")
  | unknown label => if bytes.isEmpty then .ok [] else .error (.unknownCoding label)

/-- Where a position of a text lies in its encoded form. -/
def byteOffset (charset : Charset) (t : Text) (position : Int) : Except Fault Nat :=
  (charset.encode (t.upTo position)).map List.length

end Charset

end PageManifest
