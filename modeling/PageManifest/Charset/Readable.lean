import PageManifest.Charset.Utf8
import PageManifest.Text.Hex

/-!
# Readable octets

Octets that are meant to be UTF-8 can always be shown as text: those that are none
are shown by their number.
-/

namespace PageManifest.Charset.Utf8

def shownOctet (b : UInt8) : Text :=
  '\\' :: 'x' :: Text.hexOctet b

/-- Shows octets as text, in no more steps than there are octets. -/
def readableFrom : (fuel : Nat) → Bytes → Text
  | _, [] => []
  | 0, _ => []
  | fuel + 1, b :: rest =>
      match step b rest with
      | .ok (c, rest) => c :: readableFrom fuel rest
      | .error (count, _) =>
          ((b :: rest).take count).flatMap shownOctet ++ readableFrom fuel ((b :: rest).drop count)

/-- Octets shown as text. -/
def readable (bytes : Bytes) : Text :=
  readableFrom bytes.length bytes

end PageManifest.Charset.Utf8
