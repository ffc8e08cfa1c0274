import PageManifest.Charset.Coding
import PageManifest.Digest.Method

/-!
# The platform

The names of encodings and of digests reach further than what is written out here.  The
platform that the library runs on supplies the rest; what is said of the library holds on
every platform.
-/

namespace PageManifest

/-- What a platform supplies by name. -/
class Platform where
  /-- The text coding of a canonical name. -/
  coding : String → Charset.Coding
  /-- The way to make a digest that goes by a name. -/
  digest? : String → Option Digest.Method

end PageManifest
