import PageManifest.Digest.Blocks

/-!
# SHA-1

A digest over words of 32 bits, most significant octet first.  A block of sixteen words
is extended to eighty, one for each round.
-/

namespace PageManifest.Digest.Sha1

/-- The five working words. -/
structure State where
  a : UInt32
  b : UInt32
  c : UInt32
  d : UInt32
  e : UInt32

/-- Rotation to the left. -/
def rotate (x n : UInt32) : UInt32 :=
  (x <<< n) ||| (x >>> (32 - n))

/-- Extends a schedule, which is kept newest word first, by `count` words. -/
def extend : (count : Nat) → List UInt32 → List UInt32
  | 0, words => words
  | count + 1, words =>
      extend count (rotate (words.getD 2 0 ^^^ words.getD 7 0 ^^^ words.getD 13 0 ^^^
        words.getD 15 0) 1 :: words)

/-- The round function and constant of round `i`. -/
def mix (i : Nat) (b c d : UInt32) : UInt32 :=
  if i < 20 then ((b &&& c) ||| ((~~~b) &&& d)) + 0x5a827999
  else if i < 40 then (b ^^^ c ^^^ d) + 0x6ed9eba1
  else if i < 60 then ((b &&& c) ||| (b &&& d) ||| (c &&& d)) + 0x8f1bbcdc
  else (b ^^^ c ^^^ d) + 0xca62c1d6

def round (s : State) (i : Nat) (word : UInt32) : State :=
  ⟨rotate s.a 5 + mix i s.b s.c s.d + s.e + word, s.a, rotate s.b 30, s.c, s.d⟩

def compress (s : State) (block : List UInt32) : State :=
  let schedule := (extend 64 block.reverse).reverse
  let t := ((List.range 80).zip schedule).foldl (fun s (i, word) => round s i word) s
  ⟨s.a + t.a, s.b + t.b, s.c + t.c, s.d + t.d, s.e + t.e⟩

/-- How messages are cut. -/
def layout : Layout :=
  ⟨64, 4, 8, .big⟩

def sum (message : Bytes) : Bytes :=
  let start : State := ⟨0x67452301, 0xefcdab89, 0x98badcfe, 0x10325476, 0xc3d2e1f0⟩
  let s := (layout.blocks message).foldl (fun s block => compress s (block.map UInt32.ofNat)) start
  [s.a, s.b, s.c, s.d, s.e].flatMap fun w => octetsOf layout.order layout.wordSize w.toNat

end PageManifest.Digest.Sha1
