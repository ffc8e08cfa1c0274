import PageManifest.Number.Binary
import PageManifest.Text.Basic

/-!
# Decimal text of numbers

A quotient of integers is written with a set number of places, with a set number of
digits and an exponent, or in whichever of the two suits its size.  A binary size is
also written with the fewest digits that read back as the same size.
-/

namespace PageManifest.Number

def digits (n : Nat) : Text :=
  Nat.toDigits 10 n

/-- Digits before and after the point; the point is left out where nothing follows it. -/
def pointed (point : Bool) (whole fraction : Text) : Text :=
  if fraction.isEmpty && !point then whole else whole ++ '.' :: fraction

/-- A quotient with a set number of places. -/
def fixed (point : Bool) (places num den : Nat) : Text :=
  let ds := digits (nearest (scaled 10 num places) den)
  let ds := List.replicate (places + 1 - ds.length) '0' ++ ds
  pointed point (ds.take (ds.length - places)) (ds.drop (ds.length - places))

/-- The first digits of a quotient, rounded, and the exponent of the first of them. -/
def significant (count num den : Nat) : Text × Int :=
  if num = 0 then (List.replicate count '0', 0)
  else
    let exponent := leading 10 num den
    let shift : Int := count - 1 - exponent
    let ds := digits (nearest (scaled 10 num shift) (scaled 10 den (-shift)))
    (ds.take count, exponent + (ds.length - count : Nat))

/-- An exponent as it is written behind the digits. -/
def exponentText (mark : Char) (exponent : Int) : Text :=
  let ds := digits exponent.natAbs
  mark :: (if exponent < 0 then '-' else '+') :: (List.replicate (2 - ds.length) '0' ++ ds)

/-- A quotient with one digit before the point, a set number of places and an exponent. -/
def scientific (point : Bool) (mark : Char) (places num den : Nat) : Text :=
  let (ds, exponent) := significant (places + 1) num den
  pointed point (ds.take 1) (ds.drop 1) ++ exponentText mark exponent

/-- Digits without the zeros they end with. -/
def withoutZeros (ds : Text) : Text :=
  (ds.reverse.dropWhile (· == '0')).reverse

/--
A quotient with a set number of digits, of which zeros at the end are left out unless
the point is asked for.  An exponent is written for what is below one in ten thousand
and for what has more digits before the point.
-/
def general (point : Bool) (mark : Char) (count num den : Nat) : Text :=
  let count := if count = 0 then 1 else count
  let (ds, exponent) := significant count num den
  let trimmed (fraction : Text) : Text := if point then fraction else withoutZeros fraction
  if -4 ≤ exponent ∧ exponent < count then
    let ds := List.replicate (-exponent).toNat '0' ++ ds
    let whole := exponent.toNat + 1
    pointed point (ds.take whole) (trimmed (ds.drop whole))
  else
    pointed point (ds.take 1) (trimmed (ds.drop 1)) ++ exponentText mark exponent

namespace Binary

/-- The two decimals around a size with a set number of digits, the nearer one first. -/
def neighbours (count : Nat) (x : Binary) : List (Nat × Int) :=
  let (num, den) := x.quotient
  let unit : Int := leading 10 num den + 1 - count
  let num := scaled 10 num (-unit)
  let den := scaled 10 den unit
  let nearer := nearest num den
  let other := if nearer = num / den then nearer + 1 else num / den
  [(nearer, unit), (other, unit)]

def readsBack (x : Binary) (decimal : Nat × Int) : Bool :=
  ofQuotient? (scaled 10 decimal.1 decimal.2) (scaled 10 1 (-decimal.2)) = some x

/-- The decimal with the fewest digits that reads back as a positive size. -/
def shortest (x : Binary) : Nat × Int :=
  let decimals := (List.range 17).flatMap fun n => x.neighbours (n + 1)
  ((decimals.find? x.readsBack).orElse fun _ => (x.neighbours 17).head?).getD (0, 0)

/--
A size with the fewest digits that read back: positional from one in ten thousand up to
below ten to the sixteenth, with at least one digit after the point, and otherwise with
an exponent.
-/
def written (x : Binary) : Text :=
  if x.mantissa = 0 then "0.0".toList
  else
    let (n, unit) := x.shortest
    let ds := digits n
    let exponent := unit + ds.length - 1
    let ds := withoutZeros ds
    if -4 ≤ exponent ∧ exponent < 16 then
      let ds := List.replicate (-exponent).toNat '0' ++ ds
      let whole := exponent.toNat + 1
      let fraction := ds.drop whole
      ds.take whole ++ List.replicate (whole - ds.length) '0' ++
        '.' :: if fraction.isEmpty then ['0'] else fraction
    else
      pointed false (ds.take 1) (ds.drop 1) ++ exponentText 'e' exponent

end Binary

end PageManifest.Number
