import PageManifest.Text.Basic

/-!
# Payload text

Payloads are written in the standard base64 alphabet with padding.  Reading is
strict: alphabet characters, then padding, and nothing else; only surplus padding
after complete groups of four is let through.
-/

namespace PageManifest.Base64

/-- The digit of the standard alphabet for a value below 64. -/
def digit (v : Nat) : Char :=
  if v < 26 then Char.ofNat (0x41 + v)
  else if v < 52 then Char.ofNat (0x61 + (v - 26))
  else if v < 62 then Char.ofNat (0x30 + (v - 52))
  else if v = 62 then '+'
  else '/'

/-- The value of a digit of the standard alphabet. -/
def value? (c : Char) : Option Nat :=
  let n := c.toNat
  if 0x41 ≤ n ∧ n ≤ 0x5a then some (n - 0x41)
  else if 0x61 ≤ n ∧ n ≤ 0x7a then some (n - 0x61 + 26)
  else if 0x30 ≤ n ∧ n ≤ 0x39 then some (n - 0x30 + 52)
  else if c = '+' then some 62
  else if c = '/' then some 63
  else none

/-- Whether a character is a digit of the standard alphabet. -/
def isDigit (c : Char) : Bool :=
  (value? c).isSome

theorem value?_digit {v : Nat} (h : v < 64) : value? (digit v) = some v := by
  have all : ∀ w ∈ List.range 64, value? (digit w) = some w := by decide
  exact all v (List.mem_range.mpr h)

/-- Groups of three octets become four digits; a shorter last group is padded with `=`. -/
def encode : Bytes → Text
  | [] => []
  | [a] =>
      let n := a.toNat * 16
      [digit (n / 64), digit (n % 64), '=', '=']
  | [a, b] =>
      let n := (a.toNat * 256 + b.toNat) * 4
      [digit (n / 4096), digit (n / 64 % 64), digit (n % 64), '=']
  | a :: b :: c :: rest =>
      let n := (a.toNat * 256 + b.toNat) * 256 + c.toNat
      digit (n / 262144) :: digit (n / 4096 % 64) :: digit (n / 64 % 64) :: digit (n % 64) ::
        encode rest

/-- The octets that digit values stand for; left-over bits of a short last group are dropped. -/
def octets : List Nat → Bytes
  | a :: b :: c :: d :: rest =>
      let n := ((a * 64 + b) * 64 + c) * 64 + d
      UInt8.ofNat (n / 65536) :: UInt8.ofNat (n / 256 % 256) :: UInt8.ofNat (n % 256) ::
        octets rest
  | [a, b, c] =>
      let n := ((a * 64 + b) * 64 + c) / 4
      [UInt8.ofNat (n / 256), UInt8.ofNat (n % 256)]
  | [a, b] => [UInt8.ofNat ((a * 64 + b) / 16)]
  | _ => []

/-- Why a text is no payload. -/
inductive Fault
  | notAscii
  | leadingPadding
  | dataAfterPadding
  | outsideAlphabet
  | splitPadding
  | loneDigit (digits : Nat)
  | missingPadding
  deriving DecidableEq, Repr

def Fault.message : Fault → String
  | notAscii => "string argument should contain only ASCII characters"
  | leadingPadding => "Leading padding not allowed"
  | dataAfterPadding => "Excess data after padding"
  | outsideAlphabet => "Only base64 data is allowed"
  | splitPadding => "Discontinuous padding not allowed"
  | loneDigit digits =>
      "Invalid base64-encoded string: number of data characters (" ++ toString digits ++
        ") cannot be 1 more than a multiple of 4"
  | missingPadding => "Incorrect padding"

/--
Checks what follows `digits` digits, of which `pads` padding characters have been
read.  Padding counts once a group holds two digits, and ends the text as soon as
it completes the group; before that it is passed over.
-/
def checkPadding (digits pads : Nat) : Text → Except Fault Unit
  | [] =>
      if digits % 4 = 0 then .ok ()
      else if digits % 4 = 1 then .error (.loneDigit digits)
      else .error .missingPadding
  | c :: rest =>
      if c = '=' then
        if 2 ≤ digits % 4 ∧ 4 ≤ digits % 4 + (pads + 1) then
          if rest.isEmpty then .ok () else .error .dataAfterPadding
        else checkPadding digits (pads + 1) rest
      else if isDigit c then .error .splitPadding
      else .error .outsideAlphabet

/-- Strict reading of a payload text. -/
def decode (t : Text) : Except Fault Bytes :=
  if t.any (0x80 ≤ ·.toNat) then .error .notAscii
  else if t.head? = some '=' then .error .leadingPadding
  else
    let digits := t.takeWhile isDigit
    match checkPadding digits.length 0 (t.dropWhile isDigit) with
    | .error fault => .error fault
    | .ok () => .ok (octets (digits.filterMap value?))

end PageManifest.Base64
