import PageManifest.Charset.Utf8

/-!
# Single-octet codings

ASCII, Latin-1 and the Western code page 1252, in which an octet is a character.
The code page differs from Latin-1 in the octets from 0x80 to 0x9f, five of
which are unassigned.
-/

namespace PageManifest.Charset

namespace Ascii

def step (b : UInt8) (rest : Bytes) : Step :=
  if b.toNat < 0x80 then .ok (Char.ofNat b.toNat, rest) else .error (1, .beyondAscii)

end Ascii

namespace Latin1

def step (b : UInt8) (rest : Bytes) : Step :=
  .ok (Char.ofNat b.toNat, rest)

end Latin1

namespace Western

/-- The characters of the octets from 0x80 to 0x9f; zero marks an unassigned octet. -/
def upperControls : List Nat :=
  [0x20ac, 0, 0x201a, 0x0192, 0x201e, 0x2026, 0x2020, 0x2021,
   0x02c6, 0x2030, 0x0160, 0x2039, 0x0152, 0, 0x017d, 0,
   0, 0x2018, 0x2019, 0x201c, 0x201d, 0x2022, 0x2013, 0x2014,
   0x02dc, 0x2122, 0x0161, 0x203a, 0x0153, 0, 0x017e, 0x0178]

def codeOf? (b : UInt8) : Option Nat :=
  let n := b.toNat
  if 0x80 ≤ n ∧ n ≤ 0x9f then
    match upperControls[n - 0x80]? with
    | some code => if code = 0 then none else some code
    | none => none
  else some n

def octet? (c : Char) : Option UInt8 :=
  let n := c.toNat
  if n < 0x80 ∨ (0xa0 ≤ n ∧ n ≤ 0xff) then some (UInt8.ofNat n)
  else (upperControls.idxOf? n).map fun i => UInt8.ofNat (0x80 + i)

def step (b : UInt8) (rest : Bytes) : Step :=
  match codeOf? b with
  | some code => .ok (Char.ofNat code, rest)
  | none => .error (1, .unassigned)

end Western

end PageManifest.Charset
