/-!
# Document text

A document is a list of code points.  This module fixes which of them count as
blank, and cuts blank runs off the ends of a text.
-/

namespace PageManifest

/-- A decoded document or any part of one. -/
abbrev Text := List Char

/-- Encoded documents, payloads and files are lists of octets. -/
abbrev Bytes := List UInt8

namespace Text

/--
Blank characters: the white space of the Unicode property, together with the
four separator controls U+001C to U+001F.
-/
def isBlank (c : Char) : Bool :=
  let n := c.toNat
  (0x09 ≤ n && n ≤ 0x0d) || (0x1c ≤ n && n ≤ 0x20) || n == 0x85 || n == 0xa0 ||
    n == 0x1680 || (0x2000 ≤ n && n ≤ 0x200a) || n == 0x2028 || n == 0x2029 ||
    n == 0x202f || n == 0x205f || n == 0x3000

/-- The text without the blank run it starts with. -/
def trimStart (t : Text) : Text :=
  t.dropWhile isBlank

/-- The text without the blank run it ends with. -/
def trimEnd (t : Text) : Text :=
  (t.reverse.dropWhile isBlank).reverse

/-- The text without the blank runs at either end. -/
def trim (t : Text) : Text :=
  trimEnd (trimStart t)

/--
The part of a text in front of a position.  A negative position counts from the
end, and one outside the text stands for the nearer end.
-/
def upTo (t : Text) (position : Int) : Text :=
  if 0 ≤ position then t.take position.toNat
  else t.take (t.length - (-position).toNat)

theorem trimStart_cons_of_blank {c : Char} (h : isBlank c = true) (t : Text) :
    trimStart (c :: t) = trimStart t := by
  simp [trimStart, h]

theorem trimStart_cons_of_not_blank {c : Char} (h : isBlank c = false) (t : Text) :
    trimStart (c :: t) = c :: t := by
  simp [trimStart, h]

/-- Blanks in front of a text do not matter to `trimStart`. -/
theorem trimStart_append_of_blank {s : Text} (h : ∀ c ∈ s, isBlank c = true) (t : Text) :
    trimStart (s ++ t) = trimStart t := by
  induction s with
  | nil => rfl
  | cons c s ih =>
      rw [List.cons_append, trimStart_cons_of_blank (h c (by simp))]
      exact ih fun d hd => h d (by simp [hd])

theorem trimEnd_concat_of_blank {c : Char} (h : isBlank c = true) (t : Text) :
    trimEnd (t ++ [c]) = trimEnd t := by
  simp [trimEnd, h]

theorem trimEnd_concat_of_not_blank {c : Char} (h : isBlank c = false) (t : Text) :
    trimEnd (t ++ [c]) = t ++ [c] := by
  simp [trimEnd, h]

/-- Blanks behind a text do not matter to `trimEnd`. -/
theorem trimEnd_append_of_blank {s : Text} (h : ∀ c ∈ s, isBlank c = true) (t : Text) :
    trimEnd (t ++ s) = trimEnd t := by
  have turned := trimStart_append_of_blank (s := s.reverse) (by simpa using h) t.reverse
  simpa [trimEnd, trimStart] using congrArg List.reverse turned

theorem length_trimStart_le (t : Text) : (trimStart t).length ≤ t.length :=
  (List.dropWhile_sublist isBlank).length_le

@[simp] theorem upTo_natCast (t : Text) (n : Nat) : upTo t n = t.take n := by
  simp [upTo]

end Text

end PageManifest
