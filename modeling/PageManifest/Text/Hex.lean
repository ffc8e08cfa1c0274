import PageManifest.Text.Basic

/-!
# Hexadecimal digits

Reading takes digits of either case and writing gives small letters.
-/

namespace PageManifest.Text

/-- The value of a hexadecimal digit of either case. -/
def hexValue? (c : Char) : Option Nat :=
  let n := c.toNat
  if 0x30 ≤ n ∧ n ≤ 0x39 then some (n - 0x30)
  else if 0x61 ≤ n ∧ n ≤ 0x66 then some (n - 0x61 + 10)
  else if 0x41 ≤ n ∧ n ≤ 0x46 then some (n - 0x41 + 10)
  else none

/-- The number that a run of hexadecimal digits denotes; other characters are passed over. -/
def hexNumber (digits : Text) : Nat :=
  digits.foldl (fun acc c => match hexValue? c with
    | some d => acc * 16 + d
    | none => acc) 0

/-- The digit for a value below sixteen, in lower case. -/
def hexDigit (n : Nat) : Char :=
  Char.ofNat (if n < 10 then 0x30 + n else 0x61 + (n - 10))

/-- The last `width` hexadecimal digits of a number. -/
def hexDigits : (width : Nat) → Nat → Text
  | 0, _ => []
  | width + 1, n => hexDigits width (n / 16) ++ [hexDigit (n % 16)]

@[simp] theorem length_hexDigits (width n : Nat) : (hexDigits width n).length = width := by
  induction width generalizing n with
  | zero => rfl
  | succ width ih => simp [hexDigits, ih]

/-- Two digits for an octet. -/
def hexOctet (b : UInt8) : Text :=
  hexDigits 2 b.toNat

end PageManifest.Text
