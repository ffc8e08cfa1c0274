import PageManifest.Charset.Fault

/-!
# UTF-8

One to four octets per character.  `step` reads one character and refuses
overlong forms, surrogates and code points beyond the last plane at the first
octet that rules them in.
-/

namespace PageManifest.Charset

/--
What reading one character from octets yields: the character with the octets
behind it, or how many octets are at fault and why.
-/
abbrev Step := Except (Nat × Undecodable) (Char × Bytes)

namespace Utf8

def octets (c : Char) : Bytes :=
  let n := c.toNat
  if n < 0x80 then [UInt8.ofNat n]
  else if n < 0x800 then
    [UInt8.ofNat (0xc0 + n / 0x40), UInt8.ofNat (0x80 + n % 0x40)]
  else if n < 0x10000 then
    [UInt8.ofNat (0xe0 + n / 0x1000), UInt8.ofNat (0x80 + n / 0x40 % 0x40),
      UInt8.ofNat (0x80 + n % 0x40)]
  else
    [UInt8.ofNat (0xf0 + n / 0x40000), UInt8.ofNat (0x80 + n / 0x1000 % 0x40),
      UInt8.ofNat (0x80 + n / 0x40 % 0x40), UInt8.ofNat (0x80 + n % 0x40)]

/-- Octets that can only continue a character. -/
def isContinuation (b : UInt8) : Bool :=
  0x80 ≤ b.toNat && b.toNat ≤ 0xbf

/-- The second octets that a leading octet admits. -/
def admitsSecond (lead second : UInt8) : Bool :=
  let b := second.toNat
  match lead.toNat with
  | 0xe0 => 0xa0 ≤ b && b ≤ 0xbf
  | 0xed => 0x80 ≤ b && b ≤ 0x9f
  | 0xf0 => 0x90 ≤ b && b ≤ 0xbf
  | 0xf4 => 0x80 ≤ b && b ≤ 0x8f
  | _ => 0x80 ≤ b && b ≤ 0xbf

/-- Reads the character that starts with `lead`. -/
def step (lead : UInt8) (rest : Bytes) : Step :=
  let n := lead.toNat
  if n < 0x80 then .ok (Char.ofNat n, rest)
  else if n < 0xc2 then .error (1, .badStart)
  else if n < 0xe0 then
    match rest with
    | [] => .error (1, .endOfData)
    | b :: rest =>
        if isContinuation b then
          .ok (Char.ofNat ((n - 0xc0) * 0x40 + (b.toNat - 0x80)), rest)
        else .error (1, .badContinuation)
  else if n < 0xf5 then
    match rest with
    | [] => .error (1, .endOfData)
    | b :: rest =>
        if !admitsSecond lead b then .error (1, .badContinuation)
        else
          match rest with
          | [] => .error (2, .endOfData)
          | c :: rest =>
              if !isContinuation c then .error (2, .badContinuation)
              else if n < 0xf0 then
                .ok (Char.ofNat ((n - 0xe0) * 0x1000 + (b.toNat - 0x80) * 0x40 +
                  (c.toNat - 0x80)), rest)
              else
                match rest with
                | [] => .error (3, .endOfData)
                | d :: rest =>
                    if isContinuation d then
                      .ok (Char.ofNat ((n - 0xf0) * 0x40000 + (b.toNat - 0x80) * 0x1000 +
                        (c.toNat - 0x80) * 0x40 + (d.toNat - 0x80)), rest)
                    else .error (3, .badContinuation)
  else .error (1, .badStart)

end Utf8

end PageManifest.Charset
