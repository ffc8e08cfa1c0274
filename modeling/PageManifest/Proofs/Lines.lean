import PageManifest.Text.Lines

/-!
# How texts fall into lines

A line is a text that is its own only line.  Ended lines can be put in front of any
text that does not go on with a line feed: they stay lines.  So a list of lines, all
of them ended but the last, is what its text falls into.  A line that is not ended
has no line break at all and runs on into whatever follows.
-/

namespace PageManifest.Text

/-- Whether a line has its terminator. -/
def ended (line : Text) : Bool :=
  line.getLast?.any isLineBreak

/-- Whether a text has no line break. -/
def unbroken (t : Text) : Bool :=
  t.all (!isLineBreak ·)

variable {c : Char} {t line rest : Text} {ls : List Text}

theorem ended_cons (h : t ≠ []) : ended (c :: t) = ended t := by
  obtain ⟨d, t, rfl⟩ := List.exists_cons_of_ne_nil h
  rfl

theorem ended_append (h : t ≠ []) : ended (line ++ t) = ended t := by
  rw [ended, List.getLast?_append, List.getLast?_eq_some_getLast h, Option.some_or, ended,
    List.getLast?_eq_some_getLast h]

@[simp] theorem ended_concat : ended (t ++ [c]) = isLineBreak c := by
  simp [ended]

theorem lines_of_break (hc : isLineBreak c = true) (hnext : c = '\r' → t.head? ≠ some '\n') :
    lines (c :: t) = [c] :: lines t := by
  rw [lines, if_pos hc]
  rintro t rfl rfl
  exact hnext rfl rfl

theorem lines_of_not_break (hc : isLineBreak c = false) :
    lines (c :: t) = prependToFirst c (lines t) := by
  rw [lines, if_neg (by simp [hc])]
  rintro t rfl rfl
  cases hc

theorem lines_eq_nil_iff : lines t = [] ↔ t = [] := by
  constructor
  · intro h
    rw [← flatten_lines t, h, List.flatten_nil]
  · rintro rfl
    rfl

theorem nil_not_mem_lines (t : Text) : [] ∉ lines t := by
  fun_induction lines t with
  | case1 => exact List.not_mem_nil
  | case2 t ih => simpa using ih
  | case3 c t _ hc ih => simpa using ih
  | case4 c t _ hc ih =>
      cases h : lines t with
      | nil => simp [prependToFirst]
      | cons first others =>
          rw [h] at ih
          simp only [prependToFirst, List.mem_cons, reduceCtorEq, false_or]
          exact fun hmem => ih (List.mem_cons_of_mem _ hmem)

/-- The lines of a text are lines. -/
theorem lines_of_mem_lines (h : line ∈ lines t) : lines line = [line] := by
  fun_induction lines t generalizing line with
  | case1 => cases h
  | case2 t ih =>
      rcases List.mem_cons.mp h with rfl | h
      · rfl
      · exact ih h
  | case3 c t _ hc ih =>
      rcases List.mem_cons.mp h with rfl | h
      · rw [lines_of_break hc (by simp)]
        rfl
      · exact ih h
  | case4 c t _ hc ih =>
      have hc : isLineBreak c = false := by simpa using hc
      cases hls : lines t with
      | nil =>
          rw [hls] at h
          obtain rfl := List.mem_singleton.mp h
          rw [lines_of_not_break hc]
          rfl
      | cons first others =>
          rw [hls] at h ih
          rcases List.mem_cons.mp h with rfl | h
          · rw [lines_of_not_break hc, ih List.mem_cons_self]
            rfl
          · exact ih (List.mem_cons_of_mem _ h)

/-- All lines of a text are ended but the last. -/
theorem ended_of_mem_dropLast_lines (h : line ∈ (lines t).dropLast) : ended line = true := by
  fun_induction lines t generalizing line with
  | case1 => cases h
  | case2 t ih =>
      cases hls : lines t with
      | nil => simp [hls] at h
      | cons first others =>
          rw [hls, List.dropLast_cons_cons] at h
          rcases List.mem_cons.mp h with rfl | h
          · rfl
          · exact ih (by rwa [hls])
  | case3 c t _ hc ih =>
      cases hls : lines t with
      | nil => simp [hls] at h
      | cons first others =>
          rw [hls, List.dropLast_cons_cons] at h
          rcases List.mem_cons.mp h with rfl | h
          · simpa [ended] using hc
          · exact ih (by rwa [hls])
  | case4 c t _ hc ih =>
      cases hls : lines t with
      | nil => simp [hls, prependToFirst] at h
      | cons first others =>
          rw [hls] at h ih
          cases others with
          | nil => simp [prependToFirst] at h
          | cons second others =>
              simp only [prependToFirst, List.dropLast_cons_cons, List.mem_cons] at h ih
              rcases h with rfl | h
              · have hfirst : first ≠ [] := by
                  rintro rfl
                  exact nil_not_mem_lines t (by simp [hls])
                rw [ended_cons hfirst]
                exact ih (.inl rfl)
              · exact ih (.inr h)

/-- A text without line breaks runs on into the first line of what follows. -/
theorem lines_unbroken_append (h : unbroken t = true) (hrest : lines rest = line :: ls) :
    lines (t ++ rest) = (t ++ line) :: ls := by
  induction t with
  | nil => exact hrest
  | cons c t ih =>
      simp only [unbroken, List.all_cons, Bool.and_eq_true, Bool.not_eq_true'] at h
      rw [List.cons_append, lines_of_not_break h.1, ih h.2]
      rfl

/-- A line is a terminator, or a character in front of nothing or of another line. -/
theorem line_cases (h : lines (c :: t) = [c :: t]) :
    (isLineBreak c = true ∧ (t = [] ∨ c = '\r' ∧ t = ['\n'])) ∨
      (isLineBreak c = false ∧ (t = [] ∨ t ≠ [] ∧ lines t = [t])) := by
  by_cases hc : isLineBreak c = true
  · refine .inl ⟨hc, ?_⟩
    by_cases hnext : c = '\r' ∧ t.head? = some '\n'
    · obtain ⟨rfl, hnext⟩ := hnext
      obtain ⟨t, rfl⟩ := List.head?_eq_some_iff.mp hnext
      have h : ['\r', '\n'] :: lines t = ['\r' :: '\n' :: t] := h
      simp only [List.cons.injEq, lines_eq_nil_iff] at h
      exact .inr ⟨rfl, by rw [h.2]⟩
    · rw [lines_of_break hc (by simpa using hnext)] at h
      simp only [List.cons.injEq, lines_eq_nil_iff] at h
      exact .inl h.2
  · have hc : isLineBreak c = false := by simpa using hc
    refine .inr ⟨hc, ?_⟩
    rw [lines_of_not_break hc] at h
    cases hls : lines t with
    | nil => exact .inl (lines_eq_nil_iff.mp hls)
    | cons first others =>
        simp only [hls, prependToFirst, List.cons.injEq, true_and] at h
        refine .inr ⟨?_, by rw [h.1, h.2]⟩
        rintro rfl
        cases hls

/-- A line that is not ended has no line break. -/
theorem unbroken_of_not_ended (h : lines line = [line]) (hended : ended line = false) :
    unbroken line = true := by
  induction line with
  | nil => rfl
  | cons c t ih =>
      rcases line_cases h with ⟨hc, rfl | ⟨rfl, rfl⟩⟩ | ⟨hc, rfl | ⟨hne, ht⟩⟩
      · simp [ended, hc] at hended
      · exact absurd hended (by decide)
      · simp [unbroken, hc]
      · have ht : unbroken t = true := ih ht (by rwa [ended_cons hne] at hended)
        simpa [unbroken, hc] using ht

/-- An ended line stays a line in front of a text that does not go on with a line feed. -/
theorem lines_ended_append (h : lines line = [line]) (hended : ended line = true)
    (hrest : rest.head? ≠ some '\n') : lines (line ++ rest) = line :: lines rest := by
  induction line with
  | nil => cases hended
  | cons c t ih =>
      rcases line_cases h with ⟨hc, rfl | ⟨rfl, rfl⟩⟩ | ⟨hc, rfl | ⟨hne, ht⟩⟩
      · exact lines_of_break hc fun _ => hrest
      · rfl
      · simp [ended, hc] at hended
      · rw [List.cons_append, lines_of_not_break hc,
          ih ht (by rwa [ended_cons hne] at hended)]
        rfl

/-- A line that stays one wherever it is put between other lines. -/
structure ClosedLine (line : Text) : Prop where
  lines_eq : lines line = [line]
  ended : ended line = true
  head_ne : line.head? ≠ some '\n'

/-- Closed lines stay lines in front of a text that does not go on with a line feed. -/
theorem lines_flatten_append (h : ∀ line ∈ ls, ClosedLine line)
    (hrest : rest.head? ≠ some '\n') : lines (ls.flatten ++ rest) = ls ++ lines rest := by
  induction ls with
  | nil => rfl
  | cons first others ih =>
      have hfirst := h first (by simp)
      have hothers := ih fun l hl => h l (List.mem_cons_of_mem _ hl)
      have hnext : (others.flatten ++ rest).head? ≠ some '\n' := by
        cases others with
        | nil => exact hrest
        | cons second others =>
            have hsecond := h second (by simp)
            cases second with
            | nil => cases hsecond.ended
            | cons c t => exact hsecond.head_ne
      rw [List.flatten_cons, List.append_assoc,
        lines_ended_append hfirst.lines_eq hfirst.ended hnext, hothers, List.cons_append]

/-- Closed lines and one more line are the lines of their text. -/
theorem lines_flatten_concat (h : ∀ l ∈ ls, ClosedLine l) (hline : lines line = [line])
    (hhead : line.head? ≠ some '\n') : lines (ls ++ [line]).flatten = ls ++ [line] := by
  rw [List.flatten_append, List.flatten_singleton, lines_flatten_append h hhead, hline]

/-- A line behind a mark is a line. -/
theorem lines_marked (hc : isLineBreak c = false) (h : lines line = [line]) :
    lines (c :: line) = [c :: line] := by
  rw [lines_of_not_break hc, h]
  rfl

/-- A text without line breaks and a line feed make a closed line. -/
theorem closedLine_concat (h : unbroken t = true) (hne : t ≠ []) : ClosedLine (t ++ ['\n']) where
  lines_eq := lines_unbroken_append h rfl
  ended := ended_concat
  head_ne := by
    obtain ⟨c, t, rfl⟩ := List.exists_cons_of_ne_nil hne
    rintro ⟨⟩
    cases h

end PageManifest.Text
