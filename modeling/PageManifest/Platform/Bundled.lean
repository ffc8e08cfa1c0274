import PageManifest.Charset.RawEscape
import PageManifest.Platform

/-!
# The bundled platform

A platform for where no other one is at hand.
-/

namespace PageManifest.Platform

/-- The names of digests whose length has to be asked for, in small letters. -/
def extendableNames : List String :=
  ["shake128", "shake-128", "shake256", "shake-256"]

def bundledDigest? (name : String) : Option Digest.Method :=
  let key := String.ofList (name.toList.map Char.toLower)
  if name = "shake_128" ∨ name = "shake_256" ∨ key ∈ extendableNames then some .extendable
  else none

def bundledCoding (canonical : String) : Charset.Coding :=
  if canonical = "raw-unicode-escape" then Charset.RawEscape.coding
  else .refusing "undefined encoding"

/-- A platform with one coding that writes escapes and with the digests of any length. -/
@[reducible] def bundled : Platform :=
  ⟨bundledCoding, bundledDigest?⟩

end PageManifest.Platform
