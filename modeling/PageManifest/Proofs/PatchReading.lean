import PageManifest.Diff.Unified
import PageManifest.Proofs.Attributes
import PageManifest.Proofs.Lines

/-!
# Reading a diff back

A diff is read line by line.  Two lines name the file.  Each hunk is a heading and its
lines up to the next heading, whose marks tell what becomes of them; there must be as
many as the heading says.  What is read is what was written, as long as the lines of the
text are those that were written.
-/

namespace PageManifest.Diff

open Text

/-- A range of lines: how many lie in front of it, and its length. -/
structure Range where
  start : Nat
  length : Nat
  deriving DecidableEq, Repr

/-- Reads a decimal number at the front of a text. -/
def number? (t : Text) : Option (Nat × Text) :=
  let digits := t.takeWhile Char.isDigit
  if digits = [] then none
  else some (Nat.ofDigitChars 10 digits 0, t.dropWhile Char.isDigit)

/-- Reads a range: its first line, and its length where that is not one. -/
def range? (t : Text) : Option (Range × Text) := do
  let (first, t) ← number? t
  match t with
  | ',' :: t =>
      let (length, t) ← number? t
      some (⟨if length = 0 then first else first - 1, length⟩, t)
  | t => some (⟨first - 1, 1⟩, t)

/-- Reads the heading of a hunk: its ranges in both texts. -/
def heading? (line : Text) : Option (Range × Range) := do
  let t ← afterExact "@@ -".toList line
  let (old, t) ← range? t
  let t ← afterExact " +".toList t
  let (new, t) ← range? t
  if t = " @@\n".toList then some (old, new) else none

/-- Reads a line of a hunk. -/
def edit? : Text → Option (Edit Text)
  | ' ' :: line => some (.kept line)
  | '-' :: line => some (.removed line)
  | '+' :: line => some (.added line)
  | _ => none

/-- The hunk that a heading announces, if it has the lines that follow. -/
def hunk? (line : Text) (edits : List (Edit Text)) : Option (Hunk Text) := do
  let (old, new) ← heading? line
  let h : Hunk Text := ⟨old.start, new.start, edits⟩
  if h.old.length = old.length ∧ h.new.length = new.length then some h else none

/-- Reads lines from the last one on: the edits before the first heading, and the hunks. -/
def readLines : List Text → Option (List (Edit Text) × List (Hunk Text))
  | [] => some ([], [])
  | line :: lines => do
      let (edits, hunks) ← readLines lines
      match edit? line with
      | some e => some (e :: edits, hunks)
      | none =>
          let h ← hunk? line edits
          some ([], h :: hunks)

/-- The lines in front of all hunks. -/
def fileLines (path : String) : List Text :=
  [("--- " ++ path ++ " (current)\n").toList, ("+++ " ++ path ++ " (updated)\n").toList]

/-- Reads the diff of a file line by line. -/
def readPatch? (path : String) (t : Text) : Option (List (Hunk Text)) :=
  match lines t with
  | [] => some []
  | old :: new :: rest =>
      if [old, new] = fileLines path then
        match readLines rest with
        | some ([], hunks) => some hunks
        | _ => none
      else none
  | _ => none

/-- The lines of a hunk as they are written. -/
def Hunk.lines (h : Hunk Text) : List Text :=
  h.header.toList :: h.edits.map Edit.text

theorem flatten_fileLines (path : String) : (fileLines path).flatten = fileHeader path := by
  simp [fileLines, fileHeader]

theorem flatten_hunkLines (hs : List (Hunk Text)) :
    (hs.flatMap Hunk.lines).flatten = hs.flatMap Hunk.text := by
  induction hs with
  | nil => rfl
  | cons h hs ih =>
      rw [List.flatMap_cons, List.flatten_append, ih, List.flatMap_cons, Hunk.lines, Hunk.text,
        List.flatten_cons, ← List.flatMap_def]

section Headings

theorem number?_toDigits (n : Nat) {rest : Text} (hrest : rest.head?.all (!·.isDigit) = true) :
    number? (Nat.toDigits 10 n ++ rest) = some (n, rest) := by
  have hdigits : ∀ c ∈ Nat.toDigits 10 n, c.isDigit = true :=
    fun c hc => Nat.isDigit_of_mem_toDigits (by decide) (by decide) hc
  have hstop : rest.takeWhile Char.isDigit = [] ∧ rest.dropWhile Char.isDigit = rest := by
    cases rest with
    | nil => exact ⟨rfl, rfl⟩
    | cons c rest =>
        have hc : c.isDigit = false := by simpa using hrest
        simp [hc]
  rw [number?, List.takeWhile_append_of_pos hdigits, List.dropWhile_append_of_pos hdigits,
    hstop.1, hstop.2, List.append_nil, if_neg Nat.toDigits_ne_nil, Nat.ofDigitChars_ten_toDigits]

theorem toList_rangeText (start length : Nat) : (rangeText start length).toList =
    if length = 1 then Nat.toDigits 10 (start + 1)
    else Nat.toDigits 10 (if length = 0 then start else start + 1) ++
      ',' :: Nat.toDigits 10 length := by
  rw [rangeText]
  split
  · simp
  · simp

/-- A range is read as it was written. -/
theorem range?_rangeText (start length : Nat) {rest : Text}
    (hdigit : rest.head?.all (!·.isDigit) = true) (hcomma : rest.head? ≠ some ',') :
    range? ((rangeText start length).toList ++ rest) = some (⟨start, length⟩, rest) := by
  rw [toList_rangeText, range?]
  by_cases h : length = 1
  · rw [if_pos h, number?_toDigits _ hdigit, h]
    simp only [Option.bind_eq_bind, Option.bind_some, Nat.add_sub_cancel]
    split
    · exact absurd rfl hcomma
    · rfl
  · have hnext : (',' :: Nat.toDigits 10 length ++ rest).head?.all (!·.isDigit) = true := rfl
    rw [if_neg h, List.append_assoc, number?_toDigits _ hnext]
    simp only [Option.bind_eq_bind, Option.bind_some, List.cons_append]
    rw [number?_toDigits _ hdigit]
    simp only [Option.bind_some, Option.some.injEq, Prod.mk.injEq, Range.mk.injEq, and_true]
    split
    · rfl
    · omega

/-- A heading is read as it was written. -/
theorem heading?_header (h : Hunk Text) : heading? h.header.toList =
    some (⟨h.oldStart, h.old.length⟩, ⟨h.newStart, h.new.length⟩) := by
  have hheader : h.header.toList = "@@ -".toList ++ ((rangeText h.oldStart h.old.length).toList ++
      (" +".toList ++ ((rangeText h.newStart h.new.length).toList ++ " @@\n".toList))) := by
    simp only [Hunk.header, String.toList_append, List.append_assoc]
  rw [heading?, hheader, afterExact_append, Option.bind_eq_bind, Option.bind_some,
    range?_rangeText _ _ rfl (by simp)]
  simp only [Option.bind_eq_bind, Option.bind_some]
  rw [afterExact_append, Option.bind_some, range?_rangeText _ _ rfl (by decide)]
  rfl

end Headings

section Reading

variable {ls : List Text} {es : List (Edit Text)} {hs : List (Hunk Text)}

theorem edit?_text (e : Edit Text) : edit? e.text = some e := by
  cases e <;> rfl

theorem edit?_header (h : Hunk Text) : edit? h.header.toList = none := by
  simp [Hunk.header, edit?]

theorem readLines_edits (edits : List (Edit Text)) (h : readLines ls = some (es, hs)) :
    readLines (edits.map Edit.text ++ ls) = some (edits ++ es, hs) := by
  induction edits with
  | nil => exact h
  | cons e edits ih =>
      rw [List.map_cons, List.cons_append, readLines, ih]
      simp [edit?_text]

theorem readLines_header (h : Hunk Text) (hls : readLines ls = some (es, hs)) :
    readLines (h.header.toList :: ls) = (hunk? h.header.toList es).map fun h => ([], h :: hs) := by
  rw [readLines, hls]
  simp only [Option.bind_eq_bind, Option.bind_some, edit?_header]
  cases hunk? h.header.toList es <;> rfl

theorem hunk?_header (h : Hunk Text) : hunk? h.header.toList h.edits = some h := by
  rw [hunk?, heading?_header]
  exact if_pos ⟨rfl, rfl⟩

/-- Lines that are not those a heading announces are not read. -/
theorem hunk?_header_eq_none (h : Hunk Text)
    (hlen : (es.filterMap Edit.new?).length ≠ h.new.length) :
    hunk? h.header.toList es = none := by
  rw [hunk?, heading?_header]
  exact if_neg fun hsame => hlen hsame.2

/-- Hunks are read as they were written. -/
theorem readLines_hunks (hs : List (Hunk Text)) :
    readLines (hs.flatMap Hunk.lines) = some ([], hs) := by
  induction hs with
  | nil => rfl
  | cons h hs ih =>
      have hedits := readLines_edits h.edits ih
      rw [List.append_nil] at hedits
      rw [List.flatMap_cons, Hunk.lines, List.cons_append, readLines_header h hedits,
        hunk?_header]
      rfl

/-- What is not read spoils what stands in front of it. -/
theorem readLines_append_eq_none {front : List Text} (h : readLines ls = none) :
    readLines (front ++ ls) = none := by
  induction front with
  | nil => exact h
  | cons line front ih => rw [List.cons_append, readLines, ih]; rfl

end Reading

section Lines

variable {path : String}

theorem unbroken_append {s t : Text} :
    unbroken (s ++ t) = true ↔ unbroken s = true ∧ unbroken t = true := by
  simp [unbroken]

theorem unbroken_digits (n : Nat) : unbroken (Nat.toDigits 10 n) = true := by
  refine List.all_eq_true.mpr fun c hc => ?_
  have hdigit := Nat.isDigit_of_mem_toDigits (by decide) (by decide) hc
  simp only [Char.isDigit, ge_iff_le, Bool.and_eq_true, decide_eq_true_eq, UInt32.le_iff_toNat_le]
    at hdigit
  have hrange : 48 ≤ c.toNat ∧ c.toNat ≤ 57 := hdigit
  simp only [isLineBreak, Bool.not_eq_true', Bool.or_eq_false_iff, Bool.and_eq_false_iff,
    decide_eq_false_iff_not, beq_eq_false_iff_ne]
  omega

theorem unbroken_rangeText (start length : Nat) :
    unbroken (rangeText start length).toList = true := by
  rw [toList_rangeText]
  split
  · exact unbroken_digits _
  · exact unbroken_append.mpr ⟨unbroken_digits _, unbroken_digits length⟩

theorem closedLine_header (h : Hunk Text) : ClosedLine h.header.toList := by
  have hheader : h.header.toList = "@@ -".toList ++ ((rangeText h.oldStart h.old.length).toList ++
      (" +".toList ++ ((rangeText h.newStart h.new.length).toList ++ " @@".toList))) ++ ['\n'] := by
    simp [Hunk.header]
  rw [hheader]
  refine closedLine_concat ?_ (by simp)
  simp only [unbroken_append, unbroken_rangeText, true_and]
  decide

theorem closedLine_fileLines (hpath : unbroken path.toList = true) {line : Text}
    (h : line ∈ fileLines path) : ClosedLine line := by
  have hname : ∀ mark tail : Text, mark ≠ [] → unbroken mark = true → unbroken tail = true →
      ClosedLine (mark ++ path.toList ++ tail ++ ['\n']) := by
    intro mark tail hne hmark htail
    exact closedLine_concat (by simp only [unbroken_append, hmark, hpath, htail, and_true])
      (by simp [hne])
  have hold := hname "--- ".toList " (current)".toList (by decide) (by decide) (by decide)
  have hnew := hname "+++ ".toList " (updated)".toList (by decide) (by decide) (by decide)
  simp only [fileLines, List.mem_cons, List.not_mem_nil, or_false] at h
  rcases h with rfl | rfl
  · simpa using hold
  · simpa using hnew

/-- The line behind the mark. -/
def Edit.line : Edit Text → Text
  | kept line => line
  | removed line => line
  | added line => line

theorem head?_text (e : Edit Text) : e.text.head? ≠ some '\n' := by
  cases e <;> simp [Edit.text]

theorem lines_text {e : Edit Text} (h : Text.lines e.line = [e.line]) :
    Text.lines e.text = [e.text] := by
  cases e <;> exact lines_marked (by decide) h

theorem closedLine_text {e : Edit Text} (h : Text.lines e.line = [e.line])
    (hended : ended e.line = true) : ClosedLine e.text where
  lines_eq := lines_text h
  head_ne := head?_text e
  ended := by
    have hne : e.line ≠ [] := by
      intro hnil
      rw [hnil] at hended
      cases hended
    cases e <;> exact (ended_cons hne).trans hended

end Lines

/-- A text that falls into the lines in front of all hunks and some more is read by these. -/
theorem readPatch?_of_lines {path : String} {t : Text} {ls : List Text}
    (h : Text.lines t = fileLines path ++ ls) : readPatch? path t =
      match readLines ls with
      | some ([], hunks) => some hunks
      | _ => none := by
  rw [readPatch?, h]
  exact if_pos rfl

end PageManifest.Diff
