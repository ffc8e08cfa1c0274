import PageManifest.Text.Hex

/-!
# Ways to make a digest

Most algorithms make a digest of a fixed length.  Some give octets without an end, so that
a length has to be asked for.
-/

namespace PageManifest.Digest

/-- What an algorithm makes of a message. -/
inductive Method
  | fixed (sum : Bytes → Bytes)
  | extendable

/-- Octets in hexadecimal digits. -/
def hex (octets : Bytes) : String :=
  String.ofList (octets.flatMap Text.hexOctet)

end PageManifest.Digest
