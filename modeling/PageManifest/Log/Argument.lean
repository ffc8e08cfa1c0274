import PageManifest.Number.Decimal
import PageManifest.Text.Quoted

/-!
# Arguments of messages

What is put into a message is a plain value or a collection of values.  An argument
has a plain text and a quoted text, which differ for texts only; in a collection the
values are quoted.
-/

namespace PageManifest.Log

/-- What can be put into a message. -/
inductive Argument
  | absent
  | flag (b : Bool)
  | number (n : Int)
  /-- A number with a fraction, by its sign and its size. -/
  | fraction (negative : Bool) (size : Number.Binary)
  | text (t : Text)
  | list (items : List Argument)
  | table (entries : List (Text × Argument))

namespace Argument

mutual

def quoted : Argument → Text
  | absent => "None".toList
  | flag b => (if b then "True" else "False").toList
  | number n => (toString n).toList
  | fraction negative size => (if negative then ['-'] else []) ++ size.written
  | text t => Text.quoted t
  | list items => '[' :: [',', ' '].intercalate (quotedItems items) ++ [']']
  | table entries => '{' :: [',', ' '].intercalate (quotedEntries entries) ++ ['}']

def quotedItems : List Argument → List Text
  | [] => []
  | a :: items => quoted a :: quotedItems items

/-- The quoted texts of named arguments, each with its name. -/
def quotedEntries : List (Text × Argument) → List Text
  | [] => []
  | (name, a) :: entries => (Text.quoted name ++ ':' :: ' ' :: quoted a) :: quotedEntries entries

end

def plain : Argument → Text
  | text t => t
  | a => quoted a

def integer? : Argument → Option Int
  | flag b => some (if b then 1 else 0)
  | number n => some n
  | _ => none

def integerPart? : Argument → Option Int
  | fraction negative size =>
      let part : Int := size.quotient.1 / size.quotient.2
      some (if negative then -part else part)
  | a => integer? a

/-- The sign and the size of an argument that is a number, if it is not too large. -/
def size? : Argument → Option (Bool × Number.Binary)
  | fraction negative size => some (negative, size)
  | a => do
      let n ← integer? a
      let size ← Number.Binary.ofQuotient? n.natAbs 1
      some (n < 0, size)

def character? : Argument → Option Char
  | text [c] => some c
  | a => do
      let n ← integer? a
      if 0 ≤ n ∧ n.toNat.isValidChar then some (Char.ofNat n.toNat) else none

end Argument

end PageManifest.Log
