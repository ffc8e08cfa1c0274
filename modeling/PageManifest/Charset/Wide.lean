import PageManifest.Charset.Utf8

/-!
# UTF-16 and UTF-32

Both come in two octet orders.  UTF-16 writes a character beyond the first plane
as a lead and a trail unit; UTF-32 writes every code point in four octets.
-/

namespace PageManifest.Charset

/-- Which octet of a unit comes first. -/
inductive ByteOrder
  | little
  | big
  deriving DecidableEq, Repr

/-- Puts octets, most significant first, into an order. -/
def ByteOrder.arrange (order : ByteOrder) (octets : Bytes) : Bytes :=
  match order with
  | .big => octets
  | .little => octets.reverse

namespace Utf16

/-- The two octets of a unit. -/
def unit (order : ByteOrder) (n : Nat) : Bytes :=
  order.arrange [UInt8.ofNat (n / 0x100), UInt8.ofNat (n % 0x100)]

/-- The unit that two octets hold. -/
def unitOf (order : ByteOrder) (a b : UInt8) : Nat :=
  match order with
  | .big => a.toNat * 0x100 + b.toNat
  | .little => b.toNat * 0x100 + a.toNat

def octets (order : ByteOrder) (c : Char) : Bytes :=
  let n := c.toNat
  if n < 0x10000 then unit order n
  else
    unit order (0xd800 + (n - 0x10000) / 0x400) ++ unit order (0xdc00 + (n - 0x10000) % 0x400)

/-- Reads the character that starts with the octet `first`. -/
def step (order : ByteOrder) (first : UInt8) : Bytes → Step
  | [] => .error (1, .truncated)
  | second :: rest =>
      let u := unitOf order first second
      if u < 0xd800 ∨ 0xe000 ≤ u then .ok (Char.ofNat u, rest)
      else if 0xdc00 ≤ u then .error (2, .loneTrail)
      else
        match rest with
        | [] => .error (2, .endOfData)
        | [_] => .error (3, .endOfData)
        | third :: fourth :: rest =>
            let v := unitOf order third fourth
            if 0xdc00 ≤ v ∧ v < 0xe000 then
              .ok (Char.ofNat (0x10000 + (u - 0xd800) * 0x400 + (v - 0xdc00)), rest)
            else .error (2, .badTrail)

end Utf16

namespace Utf32

def octets (order : ByteOrder) (c : Char) : Bytes :=
  let n := c.toNat
  order.arrange [0, UInt8.ofNat (n / 0x10000), UInt8.ofNat (n / 0x100 % 0x100),
    UInt8.ofNat (n % 0x100)]

/-- The code point that four octets hold. -/
def codeOf (order : ByteOrder) (a b c d : UInt8) : Nat :=
  match order with
  | .big => ((a.toNat * 0x100 + b.toNat) * 0x100 + c.toNat) * 0x100 + d.toNat
  | .little => ((d.toNat * 0x100 + c.toNat) * 0x100 + b.toNat) * 0x100 + a.toNat

/-- Reads the character that starts with the octet `first`. -/
def step (order : ByteOrder) (first : UInt8) : Bytes → Step
  | second :: third :: fourth :: rest =>
      let n := codeOf order first second third fourth
      if 0xd800 ≤ n ∧ n < 0xe000 then .error (4, .surrogate)
      else if 0x110000 ≤ n then .error (4, .beyondUnicode)
      else .ok (Char.ofNat n, rest)
  | short => .error (short.length + 1, .truncated)

end Utf32

end PageManifest.Charset
