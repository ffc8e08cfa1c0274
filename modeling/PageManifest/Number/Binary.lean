/-!
# Binary numbers

A size in binary floating point has 53 bits and a limited exponent.  A quotient of
integers becomes the nearest such size, which is the even one of two that are equally
near; a quotient that is too large for that has none.
-/

namespace PageManifest.Number

/-- The quotient of two numbers as the nearest integer; a half goes to the even neighbour. -/
def nearest (num den : Nat) : Nat :=
  let quotient := num / den
  let twice := 2 * (num % den)
  if twice < den then quotient
  else if den < twice then quotient + 1
  else if quotient % 2 = 0 then quotient
  else quotient + 1

/-- A number times a power of a base; a negative power changes nothing. -/
def scaled (base n : Nat) (exponent : Int) : Nat :=
  n * Nat.pow base exponent.toNat

/-- The exponent of the first digit of a positive quotient in a base. -/
def leading (base num den : Nat) : Int :=
  let guess : Int := (Nat.toDigits base num).length - (Nat.toDigits base den).length
  if scaled base den guess ≤ scaled base num (-guess) then guess else guess - 1

/-- The size `mantissa * 2 ^ exponent`. -/
structure Binary where
  mantissa : Nat
  exponent : Int
  deriving DecidableEq, Repr

namespace Binary

/-- The size as a quotient of integers. -/
def quotient (x : Binary) : Nat × Nat :=
  (scaled 2 x.mantissa x.exponent, scaled 2 1 (-x.exponent))

/-- The exponent at which a quotient is rounded: 53 bits are kept, unless it is tiny. -/
def exponentFor (num den : Nat) : Int :=
  let exponent := leading 2 num den - 52
  if exponent < -1074 then -1074 else exponent

/-- The size that is nearest to a quotient, if there is one. -/
def ofQuotient? (num den : Nat) : Option Binary :=
  if num = 0 then some ⟨0, 0⟩
  else
    let exponent := exponentFor num den
    let mantissa := nearest (scaled 2 num (-exponent)) (scaled 2 den exponent)
    let x : Binary :=
      if mantissa = 0x20000000000000 then ⟨0x10000000000000, exponent + 1⟩
      else ⟨mantissa, exponent⟩
    if 971 < x.exponent then none else some x

end Binary

end PageManifest.Number
