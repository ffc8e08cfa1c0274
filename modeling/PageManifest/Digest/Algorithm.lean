import PageManifest.Digest.Md5
import PageManifest.Digest.Sha1
import PageManifest.Digest.Sha256
import PageManifest.Digest.Sha512
import PageManifest.Platform

/-!
# Digest algorithms by name

A digest is asked for by the name of its algorithm and given as hexadecimal digits.
-/

namespace PageManifest.Digest

inductive Algorithm
  | md5
  | sha1
  | sha224
  | sha256
  | sha384
  | sha512
  deriving DecidableEq, Repr

namespace Algorithm

/-- The algorithm of a name; the case of ASCII letters does not matter. -/
def ofName? (name : String) : Option Algorithm :=
  match String.ofList (name.toList.map Char.toLower) with
  | "md5" => some md5
  | "sha1" => some sha1
  | "sha224" => some sha224
  | "sha256" => some sha256
  | "sha384" => some sha384
  | "sha512" => some sha512
  | _ => none

def sum : Algorithm → Bytes → Bytes
  | md5 => Md5.sum
  | sha1 => Sha1.sum
  | sha224 => Sha256.sum224
  | sha256 => Sha256.sum256
  | sha384 => Sha512.sum384
  | sha512 => Sha512.sum512

/-- The digest of a message in hexadecimal digits. -/
def hexSum (a : Algorithm) (message : Bytes) : String :=
  hex (a.sum message)

end Algorithm

/-- The way to make a digest that goes by a name, written out here or supplied. -/
def method? [Platform] (name : String) : Option Method :=
  match Algorithm.ofName? name with
  | some a => some (.fixed a.sum)
  | none => Platform.digest? name

end PageManifest.Digest
