import PageManifest.Digest.Algorithm

/-!
# Hash regions

A data hash covers the included regions of an encoded document and leaves out the
excluded ones.  Regions form a partition of a document when they follow one
another without gap or overlap from its first octet to its last.
-/

namespace PageManifest

/-- Whether a hash covers a region. -/
inductive RegionKind
  | included
  | excluded
  deriving DecidableEq, Repr

def RegionKind.name : RegionKind → String
  | included => "included"
  | excluded => "excluded"

/-- A range of octets.  Its bounds are arbitrary integers until it is checked. -/
structure Region where
  offset : Int
  length : Int
  kind : RegionKind
  deriving DecidableEq, Repr

namespace Region

/-- The octet just past a region. -/
def stop (r : Region) : Int :=
  r.offset + r.length

/-- How messages show a region. -/
def describe (r : Region) : String :=
  let upper := r.kind.name.map Char.toUpper
  "HashRegion(offset=" ++ toString r.offset ++ ", length=" ++ toString r.length ++
    ", kind=<RegionKind." ++ upper ++ ": '" ++ r.kind.name ++ "'>)"

/-- Why regions do not fit a document, or have no digest. -/
inductive Fault
  | negativeLength (r : Region)
  | gap (cursor : Int) (next : Int)
  | overlap (cursor : Int) (next : Int)
  | coverage (covered total : Int)
  | outside (r : Region) (size : Nat)
  | unknownAlgorithm (name : String)
  | noLength
  deriving DecidableEq, Repr

def Fault.message : Fault → String
  | negativeLength r => "negative region length: " ++ r.describe
  | gap cursor next =>
      "gap at byte " ++ toString cursor ++ ": next region starts at " ++ toString next
  | overlap cursor next =>
      "overlap at byte " ++ toString cursor ++ ": next region starts at " ++ toString next
  | coverage covered total =>
      "regions cover " ++ toString covered ++ " bytes, document has " ++ toString total
  | outside r size =>
      "region " ++ r.describe ++ " lies outside " ++ toString size ++ "-byte document"
  | unknownAlgorithm name => "unsupported hash type " ++ name
  | noLength => "hexdigest() missing required argument 'length' (pos 1)"

/-- Checks that regions continue a cover that has reached `cursor`, up to `total`. -/
def checkFrom (cursor total : Int) : List Region → Except Fault Unit
  | [] => if cursor = total then .ok () else .error (.coverage cursor total)
  | r :: rest =>
      if r.length < 0 then .error (.negativeLength r)
      else if cursor < r.offset then .error (.gap cursor r.offset)
      else if r.offset < cursor then .error (.overlap cursor r.offset)
      else checkFrom r.stop total rest

/-- Checks that regions cover a document of `total` octets exactly once and in order. -/
def checkPartition (regions : List Region) (total : Int) : Except Fault Unit :=
  checkFrom 0 total regions

def ofKind (kind : RegionKind) (regions : List Region) : List Region :=
  regions.filter (·.kind = kind)

/--
The octets from `lo` up to `hi`.  A negative bound counts from the end of the
data, and a bound outside it stands for the nearer end.
-/
def slice (data : Bytes) (lo hi : Int) : Bytes :=
  let bound (i : Int) : Nat := if 0 ≤ i then i.toNat else data.length - (-i).toNat
  (data.take (bound hi)).drop (bound lo)

/-- The octets of the included regions, one after the other. -/
def includedOctets (data : Bytes) : List Region → Except Fault Bytes
  | [] => .ok []
  | r :: rest =>
      if r.kind = .included then
        if r.offset < 0 ∨ data.length < r.stop then .error (.outside r data.length)
        else (includedOctets data rest).map (slice data r.offset r.stop ++ ·)
      else includedOctets data rest

/-- The digest of octets by a method; no length is ever asked for. -/
def digestBy (method : Digest.Method) (octets : Bytes) : Except Fault String :=
  match method with
  | .fixed sum => .ok (Digest.hex (sum octets))
  | .extendable => .error .noLength

/-- The digest of the included regions.  Its algorithm is looked up first and asked last. -/
def digestIncluded [Platform] (data : Bytes) (regions : List Region) (algorithm : String) :
    Except Fault String :=
  match Digest.method? algorithm with
  | none => .error (.unknownAlgorithm algorithm)
  | some method =>
      match includedOctets data regions with
      | .error fault => .error fault
      | .ok octets => digestBy method octets

end Region

end PageManifest
