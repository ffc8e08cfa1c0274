import PageManifest.Text.Basic

/-!
# Control sequences

A control sequence starts with an escape and a bracket.  Parameters follow, then
intermediates, and one final character ends it.  The three classes have no character
in common, so a sequence can be read from left to right without looking back.
-/

namespace PageManifest.Terminal

/-- The control sequence that sets some codes. -/
def sequence (codes : List Nat) : Text :=
  '\x1b' :: '[' :: [';'].intercalate (codes.map fun code => (toString code).toList) ++ ['m']

def control (code : Nat) : Text :=
  sequence [code]

theorem length_control_pos (code : Nat) : 0 < (control code).length := by
  simp [control, sequence]

/-- Parameters of a control sequence: digits, and signs from the colon to the question mark. -/
def isParameter (c : Char) : Bool :=
  0x30 ≤ c.toNat && c.toNat ≤ 0x3f

/-- Intermediates of a control sequence: the blank and the signs up to the slash. -/
def isIntermediate (c : Char) : Bool :=
  0x20 ≤ c.toNat && c.toNat ≤ 0x2f

/-- What ends a control sequence: the printable ASCII characters from the at sign on. -/
def isFinal (c : Char) : Bool :=
  0x40 ≤ c.toNat && c.toNat ≤ 0x7e

/-- The text behind a control sequence at the start of a text. -/
def afterControl? (t : Text) : Option Text :=
  match t with
  | '\x1b' :: '[' :: t =>
      match (t.dropWhile isParameter).dropWhile isIntermediate with
      | c :: rest => if isFinal c then some rest else none
      | [] => none
  | _ => none

theorem afterControl?_length {t rest : Text} (h : afterControl? t = some rest) :
    rest.length < t.length := by
  unfold afterControl? at h
  split at h
  · rename_i t
    have parameters := (List.dropWhile_sublist isParameter (l := t)).length_le
    have intermediates :=
      (List.dropWhile_sublist isIntermediate (l := t.dropWhile isParameter)).length_le
    split at h
    · rename_i c r he
      rw [he] at intermediates
      simp at h intermediates
      rw [← h.2]
      simp
      omega
    · simp at h
  · simp at h

def plain (t : Text) : Text :=
  match _h : afterControl? t with
  | some rest => plain rest
  | none =>
      match t with
      | [] => []
      | c :: t => c :: plain t
termination_by t.length
decreasing_by
  · exact afterControl?_length _h
  · simp

end PageManifest.Terminal
