import PageManifest.Text.Basic

/-! # Trimming as a cut

Trimming cuts a text into what it keeps and a run of blanks, and leaves a text
alone that has no blank at that end.
-/

namespace PageManifest.Text

/-- A text that does not end in a blank. -/
def Tight (t : Text) : Prop :=
  ∀ s c, t = s ++ [c] → isBlank c = false

theorem Tight.of_append {s t : Text} (h : Tight (s ++ t)) : Tight t := by
  intro u c hu
  exact h (s ++ u) c (by simp [hu])

/-- Trimming drops a run of blanks from the end. -/
theorem trimEnd_append_blanks (t : Text) :
    ∃ blanks, t = trimEnd t ++ blanks ∧ ∀ c ∈ blanks, isBlank c = true := by
  refine ⟨(t.reverse.takeWhile isBlank).reverse, ?_, ?_⟩
  · rw [trimEnd, ← List.reverse_append, List.takeWhile_append_dropWhile, List.reverse_reverse]
  · intro c hc
    exact List.all_eq_true.mp List.all_takeWhile c (List.mem_reverse.mp hc)

theorem tight_trimEnd (t : Text) : Tight (trimEnd t) := by
  intro s c h
  have hrev : t.reverse.dropWhile isBlank = c :: s.reverse := by
    rw [← List.reverse_reverse (t.reverse.dropWhile isBlank)]
    change (trimEnd t).reverse = _
    rw [h]
    simp
  have hhead := List.head?_dropWhile_not isBlank t.reverse
  rw [hrev] at hhead
  simpa using hhead

theorem trimEnd_of_tight {t : Text} (h : Tight t) : trimEnd t = t := by
  rcases List.eq_nil_or_concat t with rfl | ⟨s, c, rfl⟩
  · rfl
  · rw [List.concat_eq_append] at h ⊢
    exact trimEnd_concat_of_not_blank (h s c rfl) s

/-- Trimming drops a run of blanks from the start. -/
theorem blanks_append_trimStart (t : Text) :
    ∃ blanks, t = blanks ++ trimStart t ∧ ∀ c ∈ blanks, isBlank c = true :=
  ⟨t.takeWhile isBlank, List.takeWhile_append_dropWhile.symm,
    List.all_eq_true.mp List.all_takeWhile⟩

/-- Trimming the start of a text with a tight front stays within that front. -/
theorem trimStart_append_of_tight {s : Text} (h : Tight s) (hs : s ≠ []) (t : Text) :
    ∃ a b, s = a ++ b ∧ b ≠ [] ∧ trimStart (s ++ t) = b ++ t := by
  induction s with
  | nil => exact absurd rfl hs
  | cons c s ih =>
      cases hc : isBlank c with
      | false => exact ⟨[], c :: s, rfl, by simp, trimStart_cons_of_not_blank hc (s ++ t)⟩
      | true =>
          have hne : s ≠ [] := by
            rintro rfl
            rw [h [] c rfl] at hc
            cases hc
          obtain ⟨a, b, rfl, hb, htrim⟩ := ih (h.of_append (s := [c])) hne
          refine ⟨c :: a, b, rfl, hb, ?_⟩
          rw [List.cons_append, trimStart_cons_of_blank hc]
          exact htrim

theorem trimStart_trimStart (t : Text) : trimStart (trimStart t) = trimStart t := by
  induction t with
  | nil => rfl
  | cons c t ih =>
      cases hc : isBlank c with
      | true => rw [trimStart_cons_of_blank hc, ih]
      | false => rw [trimStart_cons_of_not_blank hc, trimStart_cons_of_not_blank hc]

/-- What begins without a blank stops the trimming in front of it. -/
theorem trimStart_append_of_not_blank {c : Char} (hc : isBlank c = false) (s t : Text) :
    trimStart (s ++ c :: t) = trimStart s ++ c :: t := by
  induction s with
  | nil => exact trimStart_cons_of_not_blank hc t
  | cons d s ih =>
      cases hd : isBlank d with
      | true => rw [List.cons_append, trimStart_cons_of_blank hd, trimStart_cons_of_blank hd, ih]
      | false =>
          rw [List.cons_append, trimStart_cons_of_not_blank hd, trimStart_cons_of_not_blank hd,
            List.cons_append]

/-- Behind a suffix that has no blank at either end, only the start is trimmed. -/
theorem trim_append_of_ends {c d : Char} (hc : isBlank c = false) (hd : isBlank d = false)
    (s t : Text) : trim (s ++ c :: (t ++ [d])) = trimStart s ++ c :: (t ++ [d]) := by
  have hcut : trimStart s ++ c :: (t ++ [d]) = (trimStart s ++ c :: t) ++ [d] := by simp
  rw [trim, trimStart_append_of_not_blank hc, hcut]
  exact trimEnd_concat_of_not_blank hd _

theorem mem_trim {t : Text} {c : Char} (hc : isBlank c = false) (h : c ∈ t) : c ∈ trim t := by
  obtain ⟨front, hfront, hblank⟩ := blanks_append_trimStart t
  obtain ⟨back, hback, hblank'⟩ := trimEnd_append_blanks (trimStart t)
  have hcut : c ∈ front ++ (trim t ++ back) := by
    rw [trim, ← hback, ← hfront]
    exact h
  simp only [List.mem_append] at hcut
  rcases hcut with hmem | hmem | hmem
  · rw [hblank c hmem] at hc
    cases hc
  · exact hmem
  · rw [hblank' c hmem] at hc
    cases hc

theorem mem_of_mem_trim {t : Text} {c : Char} (h : c ∈ trim t) : c ∈ t := by
  obtain ⟨front, hfront, -⟩ := blanks_append_trimStart t
  obtain ⟨back, hback, -⟩ := trimEnd_append_blanks (trimStart t)
  rw [hfront, hback]
  exact List.mem_append_right _ (List.mem_append_left _ h)

theorem trimStart_of_no_blank {t : Text} (h : ∀ c ∈ t, isBlank c = false) : trimStart t = t := by
  cases t with
  | nil => rfl
  | cons c t => exact trimStart_cons_of_not_blank (h c (by simp)) t

theorem trim_of_no_blank {t : Text} (h : ∀ c ∈ t, isBlank c = false) : trim t = t := by
  rw [trim, trimStart_of_no_blank h]
  apply trimEnd_of_tight
  intro s c hs
  exact h c (by simp [hs])

end PageManifest.Text
