import PageManifest.Text.Basic

/-!
# Lines of text

A line ends with a carriage return, a line feed, the pair of both, or one of the
other separators of the Unicode line model.  `lines` keeps the terminators, so
that its lines join to the text they came from.
-/

namespace PageManifest.Text

/-- Characters that end a line on their own. -/
def isLineBreak (c : Char) : Bool :=
  let n := c.toNat
  (0x0a ≤ n && n ≤ 0x0d) || (0x1c ≤ n && n ≤ 0x1e) || n == 0x85 || n == 0x2028 || n == 0x2029

/-- Puts a character in front of the first of some lines. -/
def prependToFirst (c : Char) : List Text → List Text
  | [] => [[c]]
  | l :: ls => (c :: l) :: ls

/-- The lines of a text, each with its terminator. -/
def lines : Text → List Text
  | [] => []
  | '\r' :: '\n' :: t => ['\r', '\n'] :: lines t
  | c :: t => if isLineBreak c then [c] :: lines t else prependToFirst c (lines t)

def withoutBreak (line : Text) : Text :=
  line.takeWhile (!isLineBreak ·)

theorem flatten_prependToFirst (c : Char) (ls : List Text) :
    (prependToFirst c ls).flatten = c :: ls.flatten := by
  cases ls <;> simp [prependToFirst]

theorem flatten_lines (t : Text) : (lines t).flatten = t := by
  fun_induction lines t with
  | case1 => rfl
  | case2 t ih => simp [ih]
  | case3 c t _ hb ih => simp [ih]
  | case4 c t _ hb ih => simp [flatten_prependToFirst, ih]

end PageManifest.Text
