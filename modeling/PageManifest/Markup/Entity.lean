import PageManifest.Charset.SingleOctet
import PageManifest.Markup.EntityTable

/-!
# Character references in attribute values

Writing replaces the five characters that could end or change an attribute value.
Reading understands numeric references and all standard names, also without their
semicolon, as browsers do.
-/

namespace PageManifest.Markup

/-- A character as it is written in an attribute value. -/
def escapeChar (c : Char) : Text :=
  if c = '&' then ['&', 'a', 'm', 'p', ';']
  else if c = '<' then ['&', 'l', 't', ';']
  else if c = '>' then ['&', 'g', 't', ';']
  else if c = '"' then ['&', 'q', 'u', 'o', 't', ';']
  else if c = '\'' then ['&', '#', 'x', '2', '7', ';']
  else [c]

/-- A text as it is written in an attribute value. -/
def escape (t : Text) : Text :=
  t.flatMap escapeChar

/-- Code points that no reference may denote; such a reference stands for nothing. -/
def isForbiddenCode (n : Nat) : Bool :=
  (0x01 ≤ n && n ≤ 0x08) || n == 0x0b || (0x0e ≤ n && n ≤ 0x1f) || (0x7f ≤ n && n ≤ 0x9f) ||
    (0xfdd0 ≤ n && n ≤ 0xfdef) || 0xfffe ≤ n % 0x10000

/--
What a numeric reference stands for.  The range from 0x80 to 0x9f is read as the
Western code page; zero, surrogates and anything beyond Unicode become the
replacement character.
-/
def ofCode (n : Nat) : Text :=
  if n = 0 then ['\uFFFD']
  else if 0x80 ≤ n ∧ n ≤ 0x9f then
    match Charset.Western.upperControls[n - 0x80]? with
    | some code => [Char.ofNat (if code = 0 then n else code)]
    | none => []
  else if (0xd800 ≤ n ∧ n ≤ 0xdfff) ∨ 0x10ffff < n then ['\uFFFD']
  else if isForbiddenCode n then []
  else [Char.ofNat n]

/-- A decimal reference with more digits than are read as a number. -/
structure LongNumber where
  digits : Nat
  deriving DecidableEq, Repr

/-- The longest run of decimal digits that is read as a number. -/
def digitLimit : Nat := 4300

/-- The wording of the fault. -/
def LongNumber.message (f : LongNumber) : String :=
  "Exceeds the limit (" ++ toString digitLimit ++ " digits) for integer string conversion: " ++
    "value has " ++ toString f.digits ++
    " digits; use sys.set_int_max_str_digits() to increase the limit"

/-- Characters that a name in a reference is made of. -/
def isNameChar (c : Char) : Bool :=
  !(c == '\t' || c == '\n' || c == '\x0c' || c == ' ' || c == '<' || c == '&' || c == '#' ||
    c == ';')

/-- One more if a semicolon comes next. -/
def withSemicolon (count : Nat) (t : Text) : Nat :=
  if (t.drop count).head? = some ';' then count + 1 else count

/-- The longest beginning of a name, of two to `length` characters, that is a known name. -/
def longestName (name : Text) : (length : Nat) → Option (Text × Nat)
  | 0 => none
  | length + 1 =>
      if length + 1 < 2 then none
      else
        match entity? (name.take (length + 1)) with
        | some chars => some (chars, length + 1)
        | none => longestName name length

/-- What a name stands for.  If only its beginning is known the rest is kept. -/
def ofName (name : Text) : Text :=
  match entity? name with
  | some chars => chars
  | none =>
      match longestName name (name.length - 1) with
      | some (chars, count) => chars ++ name.drop count
      | none => '&' :: name

/--
The reference in a text behind an ampersand: what it stands for and how many
characters it takes.
-/
def reference? (t : Text) : Except LongNumber (Option (Text × Nat)) :=
  let decimal (rest : Text) : Except LongNumber (Option (Text × Nat)) :=
    let digits := rest.takeWhile (·.isDigit)
    if digits.isEmpty then .ok none
    else if digitLimit < digits.length then .error ⟨digits.length⟩
    else .ok (some (ofCode (digits.foldl (fun n d => n * 10 + (d.toNat - 0x30)) 0),
      withSemicolon (1 + digits.length) t))
  let hexadecimal (rest : Text) : Option (Text × Nat) :=
    let digits := rest.takeWhile fun d => (Text.hexValue? d).isSome
    if digits.isEmpty then none
    else some (ofCode (Text.hexNumber digits), withSemicolon (2 + digits.length) t)
  match t with
  | '#' :: 'x' :: rest => .ok (hexadecimal rest)
  | '#' :: 'X' :: rest => .ok (hexadecimal rest)
  | '#' :: rest => decimal rest
  | _ =>
      let name := (t.takeWhile isNameChar).take 32
      if name.isEmpty then .ok none
      else
        let count := withSemicolon name.length t
        .ok (some (ofName (t.take count), count))

/-- Replaces every reference by what it stands for, each once and from left to right. -/
def unescape : Text → Except LongNumber Text
  | [] => .ok []
  | c :: t =>
      if c = '&' then
        match reference? t with
        | .error fault => .error fault
        | .ok none => (unescape t).map ('&' :: ·)
        | .ok (some (chars, count)) => (unescape (t.drop count)).map (chars ++ ·)
      else (unescape t).map (c :: ·)
termination_by t => t.length
decreasing_by
  all_goals simp only [List.length_cons, List.length_drop]
  all_goals omega

@[simp] theorem escape_nil : escape [] = [] := rfl

@[simp] theorem escape_append (s t : Text) : escape (s ++ t) = escape s ++ escape t := by
  simp [escape]

end PageManifest.Markup
