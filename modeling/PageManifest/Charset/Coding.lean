import PageManifest.Text.Basic

/-!
# Supplied codings

Most of the text codings that have a name are not written out here: a platform supplies
them.  All that is known of such a coding is that it encodes a text or refuses it with a
reason, and likewise with octets.  It need not read back what it has written, nor encode
what it has read.
-/

namespace PageManifest.Charset

/-- A text coding as a platform supplies it.  What is refused is refused with a reason. -/
structure Coding where
  encode : Text → Except String Bytes
  decode : Bytes → Except String Text

/-- The coding that refuses everything for one reason. -/
def Coding.refusing (reason : String) : Coding :=
  ⟨fun _ => .error reason, fun _ => .error reason⟩

end PageManifest.Charset
