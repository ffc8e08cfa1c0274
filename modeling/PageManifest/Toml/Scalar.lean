import PageManifest.Text.Hex
import PageManifest.Toml.Value

/-!
# Strings and numbers

A string is basic, with escapes, or literal, and either kind can run over several
lines.  An integer is decimal, hexadecimal, octal or binary, with low lines
between digits.
-/

namespace PageManifest.Toml

/-- Blanks within a line. -/
def isSpace (c : Char) : Bool :=
  c == ' ' || c == '\t'

/-- Blanks and line feeds. -/
def isSpaceOrBreak (c : Char) : Bool :=
  isSpace c || c == '\n' || c == '\r'

/-- Controls that must be written as escapes; a tab may stand for itself. -/
def isControl (c : Char) : Bool :=
  (c.toNat < 0x20 && c != '\t') || c.toNat == 0x7f

/-- The number in exactly `count` hexadecimal digits at the start of a text, and the rest. -/
def hexEscape? (count : Nat) (t : Text) : Option (Char × Text) :=
  let digits := t.take count
  if digits.length = count ∧ digits.all fun d => (Text.hexValue? d).isSome then
    let n := Text.hexNumber digits
    if n.isValidChar then some (Char.ofNat n, t.drop count) else none
  else none

/-- The character that an escape stands for, and the rest; the text starts behind the backslash. -/
def escape? : Text → Option (Char × Text)
  | 'b' :: t => some ('\x08', t)
  | 't' :: t => some ('\t', t)
  | 'n' :: t => some ('\n', t)
  | 'f' :: t => some ('\x0c', t)
  | 'r' :: t => some ('\r', t)
  | '"' :: t => some ('"', t)
  | '\\' :: t => some ('\\', t)
  | 'e' :: t => some ('\x1b', t)
  | 'x' :: t => hexEscape? 2 t
  | 'u' :: t => hexEscape? 4 t
  | 'U' :: t => hexEscape? 8 t
  | _ => none

theorem hexEscape?_length {count : Nat} {t rest : Text} {c : Char}
    (h : hexEscape? count t = some (c, rest)) : rest.length ≤ t.length := by
  simp only [hexEscape?] at h
  split at h
  · split at h
    · simp at h
      rw [← h.2]
      simp
    · simp at h
  · simp at h

theorem escape?_length {t rest : Text} {c : Char} (h : escape? t = some (c, rest)) :
    rest.length < t.length := by
  unfold escape? at h
  split at h
  case h_9 => exact Nat.lt_succ_of_le (hexEscape?_length h)
  case h_10 => exact Nat.lt_succ_of_le (hexEscape?_length h)
  case h_11 => exact Nat.lt_succ_of_le (hexEscape?_length h)
  case h_12 => simp at h
  all_goals
    simp at h
    rw [← h.2]
    simp

/-- What tells the four kinds of strings apart. -/
structure StringKind where
  quote : Char
  multi : Bool
  deriving DecidableEq, Repr

namespace StringKind

/-- Basic strings have escapes. -/
def isBasic (k : StringKind) : Bool :=
  k.quote == '"'

/--
The quotes that close a string of several lines with up to two quotes in front of
them, and the rest.
-/
def closing? (k : StringKind) (t : Text) : Option (Text × Text) :=
  if List.replicate 3 k.quote |>.isPrefixOf t then
    let extra := ((t.drop 3).takeWhile (· = k.quote)).take 2
    some (extra, t.drop (3 + extra.length))
  else none

/-- Reads a string up to its closing quotes. -/
def body (k : StringKind) (t : Text) : Except Fault (Text × Text) :=
  match t with
  | [] => .error .malformed
  | c :: t =>
      if c = k.quote then
        if k.multi then
          match k.closing? (c :: t) with
          | some (extra, rest) => .ok (extra, rest)
          | none => (body k t).map fun (s, rest) => (c :: s, rest)
        else .ok ([], t)
      else if c = '\\' ∧ k.isBasic then
        if k.multi ∧ (t.head?.map isSpaceOrBreak).getD false then
          if (t.takeWhile isSpaceOrBreak).contains '\n' then body k (t.dropWhile isSpaceOrBreak)
          else .error .malformed
        else
          match _h : escape? t with
          | some (e, rest) => (body k rest).map fun (s, rest) => (e :: s, rest)
          | none => .error .malformed
      else if isControl c ∧ ¬ (k.multi ∧ (c = '\n' ∨ c = '\r')) then .error .malformed
      else (body k t).map fun (s, rest) => (c :: s, rest)
termination_by t.length
decreasing_by
  · simp
  · have := (List.dropWhile_sublist isSpaceOrBreak (l := t)).length_le
    simp
    omega
  · have := escape?_length _h
    simp
    omega
  · simp

end StringKind

/--
Reads a string that starts with `quote`; the text starts behind it.  A line feed
right behind three opening quotes is dropped.
-/
def string (quote : Char) (t : Text) : Except Fault (StringKind × Text × Text) :=
  let read (k : StringKind) (t : Text) := (k.body t).map fun (s, rest) => (k, s, rest)
  match t with
  | a :: b :: rest =>
      if a = quote ∧ b = quote then
        match rest with
        | '\n' :: rest => read ⟨quote, true⟩ rest
        | '\r' :: '\n' :: rest => read ⟨quote, true⟩ rest
        | rest => read ⟨quote, true⟩ rest
      else read ⟨quote, false⟩ (a :: b :: rest)
  | t => read ⟨quote, false⟩ t

/-- The digit values of a text whose low lines all stand between digits of the base. -/
def digitsOf? (base : Nat) : (afterDigit : Bool) → Text → Option (List Nat)
  | afterDigit, [] => if afterDigit then some [] else none
  | afterDigit, '_' :: t => if afterDigit then digitsOf? base false t else none
  | _, c :: t =>
      match Text.hexValue? c with
      | some d => if d < base then (digitsOf? base true t).map (d :: ·) else none
      | none => none

/-- The number of digits of some base. -/
def numberOf? (base : Nat) (t : Text) : Option Nat :=
  (digitsOf? base false t).map fun digits => digits.foldl (fun n d => n * base + d) 0

def integer? (t : Text) : Option Int :=
  let decimal (t : Text) : Option Int :=
    if t.head? = some '0' ∧ 1 < t.length then none else (numberOf? 10 t).map fun n => (n : Int)
  match t with
  | '0' :: 'x' :: t => (numberOf? 16 t).map fun n => (n : Int)
  | '0' :: 'o' :: t => (numberOf? 8 t).map fun n => (n : Int)
  | '0' :: 'b' :: t => (numberOf? 2 t).map fun n => (n : Int)
  | '+' :: t => decimal t
  | '-' :: t => (decimal t).map fun n => -n
  | t => decimal t

/-- Whether a word has the look of a fraction: digits on both sides of a point or an exponent. -/
def isFraction (t : Text) : Bool :=
  let unsigned := match t with
    | '+' :: t => t
    | '-' :: t => t
    | t => t
  let isPlain (t : Text) := (numberOf? 10 t).isSome
  let whole := unsigned.takeWhile fun c => c != '.' && c != 'e' && c != 'E'
  let isExponent (t : Text) := match t with
    | '+' :: t => isPlain t
    | '-' :: t => isPlain t
    | t => isPlain t
  unsigned == "inf".toList || unsigned == "nan".toList ||
    ((integer? whole).isSome && match unsigned.drop whole.length with
      | '.' :: t =>
          isPlain (t.takeWhile fun c => c != 'e' && c != 'E') &&
            match t.dropWhile fun c => c != 'e' && c != 'E' with
            | [] => true
            | _ :: t => isExponent t
      | _ :: t => isExponent t
      | [] => false)

/-- Whether a word has the look of a date or a time. -/
def isDate (t : Text) : Bool :=
  t.all (fun c => c.isDigit || "-:.+TtZz".toList.contains c) &&
    ((t.take 4).all Char.isDigit && (t.drop 4).head? == some '-' ||
      (t.take 2).all Char.isDigit && (t.drop 2).head? == some ':')

/-- Reads a word that is a number or a date. -/
def wordValue (word : Text) : Except Fault Value :=
  match integer? word with
  | some n => .ok (.integer n)
  | none => if isFraction word || isDate word then .ok (.scalar word) else .error .malformed

end PageManifest.Toml
