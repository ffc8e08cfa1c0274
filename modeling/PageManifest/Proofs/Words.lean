import PageManifest.Text.Word

/-! # Blanks and words

A class of characters given by lines of ranges is read line by line, so facts
about all its ranges can be checked one line at a time.  The one that markup
needs is that no blank is part of a word.
-/

namespace PageManifest.Text

/-- What holds of the first code points holds of the characters of ASCII. -/
theorem of_ascii {P : Char → Prop} (h : ∀ n ∈ List.range 0x80, P (Char.ofNat n)) {c : Char}
    (hc : c.toNat < 0x80) : P c := by
  have here := h c.toNat (List.mem_range.mpr hc)
  rw [Char.ofNat_toNat] at here
  exact here

namespace Ranges

theorem readBounds_append (word : Text) (acc : Array (Nat × Nat)) (t : Text) :
    readBounds word acc t = acc ++ readBounds word #[] t := by
  induction t generalizing word acc with
  | nil =>
      cases word <;> simp [readBounds]
  | cons c rest ih =>
      by_cases hc : c = ' '
      · subst hc
        simp only [readBounds]
        rw [ih [], ih [] (if word.isEmpty then #[] else _)]
        cases word <;> simp
      · simp only [readBounds]
        rw [ih (c :: word)]

/-- Each line contributes its own ranges, whatever has been read before it. -/
theorem toList_bounds_ofLines (lines : List String) :
    (ofLines lines).bounds.toList =
      lines.flatMap fun line => (readBounds [] #[] line.toList).toList := by
  have joined : ∀ acc : Array (Nat × Nat),
      (lines.foldl (fun acc line => readBounds [] acc line.toList) acc).toList =
        acc.toList ++ lines.flatMap fun line => (readBounds [] #[] line.toList).toList := by
    induction lines with
    | nil => simp
    | cons line lines ih =>
        intro acc
        rw [List.foldl_cons, ih, readBounds_append]
        simp
  exact joined #[]

theorem contains_eq_false {r : Ranges} {c : Char}
    (h : ∀ p ∈ r.bounds.toList, c.toNat < p.1 ∨ p.2 < c.toNat) : r.contains c = false := by
  unfold contains
  rw [← Array.any_toList, List.any_eq_false]
  intro p hp
  have apart := h p hp
  simp only [Bool.and_eq_true, decide_eq_true_eq]
  omega

end Ranges

/-- The blanks beyond ASCII, as inclusive bounds on their code points. -/
def widerBlanks : List (Nat × Nat) :=
  [(0x85, 0x85), (0xa0, 0xa0), (0x1680, 0x1680), (0x2000, 0x200a), (0x2028, 0x2029),
    (0x202f, 0x202f), (0x205f, 0x205f), (0x3000, 0x3000)]

theorem widerBlank_of_isBlank {c : Char} (h : isBlank c = true) (hc : ¬ c.toNat < 0x80) :
    ∃ q ∈ widerBlanks, q.1 ≤ c.toNat ∧ c.toNat ≤ q.2 := by
  simp only [isBlank, Bool.or_eq_true, Bool.and_eq_true, decide_eq_true_eq, beq_iff_eq] at h
  simp only [widerBlanks, List.mem_cons, List.not_mem_nil, or_false, exists_eq_or_imp,
    exists_eq_left]
  omega

set_option maxRecDepth 20000 in
theorem words_apart_widerBlanks : ∀ p ∈ wordsBeyondAscii.bounds.toList, ∀ q ∈ widerBlanks,
    q.2 < p.1 ∨ p.2 < q.1 := by
  unfold wordsBeyondAscii
  rw [Ranges.toList_bounds_ofLines]
  simp only [List.flatMap_cons]
  -- Exposes the characters of each line, which evaluation would otherwise decode one by one.
  repeat rw [String.toList_ofList]
  decide +kernel

/-- A blank ends a word. -/
theorem isWord_of_isBlank {c : Char} (h : isBlank c = true) : isWord c = false := by
  by_cases hc : c.toNat < 0x80
  · have here : isBlank c = true → isWord c = false :=
      of_ascii (P := fun d => isBlank d = true → isWord d = false) (by decide +kernel) hc
    exact here h
  · obtain ⟨q, hq, hlo, hhi⟩ := widerBlank_of_isBlank h hc
    rw [isWord, if_neg hc]
    apply Ranges.contains_eq_false
    intro p hp
    have apart := words_apart_widerBlanks p hp q hq
    omega

end PageManifest.Text
