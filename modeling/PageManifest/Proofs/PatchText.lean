import PageManifest.Proofs.PatchReading
import PageManifest.Proofs.Patches

/-!
# Diffs as patches

The hunks of a diff are a patch from the lines of one text to those of the other.
Its lines keep their own terminators and nothing is put between them, so that one
without a terminator joins the next.  Only a last line has none.  A last line that
stays, or comes, is the last line of the diff; one that goes is so unless others come
in its place.  Then the diff cannot be read back, and in no other case.
-/

namespace PageManifest.Diff

open Text

/-- Whether a last line without a terminator is taken out and others are put in its place. -/
def Joined (before after : Text) : Prop :=
  ∃ front line added,
    edits (script (lines before) (lines after)) =
      front ++ Edit.removed line :: added.map Edit.added ∧
    added ≠ [] ∧ ended line = false

section Script

variable {before after line : Text} {front back : List (Edit Text)} {e : Edit Text}

theorem filterMap_old_script {es : List (Edit Text)}
    (hscript : edits (script (lines before) (lines after)) = es) :
    es.filterMap Edit.old? = lines before := by
  rw [← hscript, filterMap_old_edits, script_old]

theorem filterMap_new_script {es : List (Edit Text)}
    (hscript : edits (script (lines before) (lines after)) = es) :
    es.filterMap Edit.new? = lines after := by
  rw [← hscript, filterMap_new_edits, script_new]

/-- Behind a line that is not ended its text has no other. -/
theorem eq_nil_of_not_ended {f : Edit Text → Option Text} {t : Text}
    (h : (front ++ e :: back).filterMap f = lines t) (he : f e = some line)
    (hended : ended line = false) : back.filterMap f = [] := by
  by_contra hback
  have hmem : line ∈ (lines t).dropLast := by
    rw [← h, List.filterMap_append, List.filterMap_cons_some he,
      List.dropLast_append_of_ne_nil (by simp), List.dropLast_cons_of_ne_nil hback]
    simp
  rw [ended_of_mem_dropLast_lines hmem] at hended
  cases hended

/-- What an edit shows is a line of one of the texts. -/
theorem lines_line_of_mem (he : e ∈ edits (script (lines before) (lines after))) :
    lines e.line = [e.line] := by
  have hold : e.old? = some e.line → lines e.line = [e.line] := fun h => by
    refine lines_of_mem_lines (t := before) ?_
    rw [← filterMap_old_script rfl]
    exact List.mem_filterMap.mpr ⟨e, he, h⟩
  have hnew : e.new? = some e.line → lines e.line = [e.line] := fun h => by
    refine lines_of_mem_lines (t := after) ?_
    rw [← filterMap_new_script rfl]
    exact List.mem_filterMap.mpr ⟨e, he, h⟩
  cases e with
  | kept line => exact hold rfl
  | removed line => exact hold rfl
  | added line => exact hnew rfl

theorem eq_map_added_of_old {es : List (Edit Text)} (h : es.filterMap Edit.old? = []) :
    ∃ added : List Text, es = added.map Edit.added := by
  induction es with
  | nil => exact ⟨[], rfl⟩
  | cons e es ih =>
      cases e with
      | kept line => cases h
      | removed line => cases h
      | added line =>
          obtain ⟨added, rfl⟩ := ih h
          exact ⟨line :: added, rfl⟩

theorem eq_map_removed_of_new {es : List (Edit Text)} (h : es.filterMap Edit.new? = []) :
    ∃ removed : List Text, es = removed.map Edit.removed := by
  induction es with
  | nil => exact ⟨[], rfl⟩
  | cons e es ih =>
      cases e with
      | kept line => cases h
      | added line => cases h
      | removed line =>
          obtain ⟨removed, rfl⟩ := ih h
          exact ⟨line :: removed, rfl⟩

/-- Unless a line joins the next one, all lines of a script are ended but the last. -/
theorem ended_of_not_joined (hjoined : ¬Joined before after)
    (hscript : edits (script (lines before) (lines after)) = front ++ e :: back)
    (hback : back ≠ []) : ended e.line = true := by
  by_contra hended
  have hended : ended e.line = false := by simpa using hended
  have hold := filterMap_old_script hscript
  have hnew := filterMap_new_script hscript
  cases e with
  | kept line =>
      obtain ⟨added, rfl⟩ := eq_map_added_of_old (eq_nil_of_not_ended hold rfl hended)
      have hnone := eq_nil_of_not_ended hnew rfl hended
      cases added with
      | nil => exact hback rfl
      | cons next added => cases hnone
  | removed line =>
      obtain ⟨added, rfl⟩ := eq_map_added_of_old (eq_nil_of_not_ended hold rfl hended)
      exact hjoined ⟨front, line, added, hscript, by simpa using hback, hended⟩
  | added line =>
      obtain ⟨removed, rfl⟩ := eq_map_removed_of_new (eq_nil_of_not_ended hnew rfl hended)
      cases removed with
      | nil => exact hback rfl
      | cons next removed =>
          -- something would go right after something came
          have horder := inOrder_script (lines before) (lines after)
          rw [hscript] at horder
          exact horder.right_of_append.rel

/-- In front of a line that joins the next one, all lines are ended. -/
theorem ended_of_joined {added : List Text}
    (hscript : edits (script (lines before) (lines after)) =
      front ++ Edit.removed line :: added.map Edit.added) (hadded : added ≠ [])
    (he : e ∈ front) : ended e.line = true := by
  by_contra hended
  have hended : ended e.line = false := by simpa using hended
  obtain ⟨front, back, rfl⟩ := List.append_of_mem he
  rw [List.append_assoc, List.cons_append] at hscript
  obtain ⟨next, added, rfl⟩ := List.exists_cons_of_ne_nil hadded
  have hold : e.old? ≠ some e.line := fun h => by
    simpa [Edit.old?] using eq_nil_of_not_ended (filterMap_old_script hscript) h hended
  have hnew : e.new? ≠ some e.line := fun h => by
    simpa [Edit.new?] using eq_nil_of_not_ended (filterMap_new_script hscript) h hended
  cases e with
  | kept line => exact hold rfl
  | removed line => exact hold rfl
  | added line => exact hnew rfl

/-- Where a line joins the next one, the first text does not end with a line break. -/
theorem not_ended_of_joined (h : Joined before after) : before ≠ [] ∧ ended before = false := by
  obtain ⟨front, line, added, hscript, hadded, hended⟩ := h
  have hlines := filterMap_old_script hscript
  have hnone : (added.map Edit.added).filterMap Edit.old? = ([] : List Text) := by
    simp [Edit.old?]
  have hline : (Edit.removed line).old? = some line := rfl
  rw [List.filterMap_append, List.filterMap_cons_some hline, hnone] at hlines
  have hne : line ≠ [] := by
    rintro rfl
    exact nil_not_mem_lines before (by simp [← hlines])
  rw [← flatten_lines before, ← hlines, List.flatten_append, List.flatten_singleton]
  exact ⟨List.append_ne_nil_of_right_ne_nil _ hne, (ended_append hne).trans hended⟩

end Script

section Text

variable {before after : Text} {path : String} {hs : List (Hunk Text)} {last : Hunk Text}
  {es rest : List (Edit Text)}

theorem patches_hunks (before after : Text) :
    Patches (hunks before after) (lines before) (lines after) := by
  have hpatches := patches_ofScript contextLines (script (lines before) (lines after))
  rwa [script_old, script_new] at hpatches

theorem hunks_eq_nil_iff : hunks before after = [] ↔ before = after := by
  rw [hunks, ofScript_eq_nil_iff]
  constructor
  · intro h
    rw [← flatten_lines before, h, flatten_lines]
  · rintro rfl
    rfl

theorem unified_of_hunks (h : hunks before after ≠ []) :
    unified before after path = fileHeader path ++ (hunks before after).flatMap Hunk.text := by
  unfold unified
  split
  · contradiction
  · rfl

/-- There is no diff of a text with itself, and of any other two there is one. -/
theorem unified_eq_nil : unified before after path = [] ↔ before = after := by
  constructor
  · intro h
    by_contra hne
    rw [← hunks_eq_nil_iff] at hne
    rw [unified_of_hunks hne] at h
    simp [fileHeader] at h
  · intro h
    rw [unified, hunks_eq_nil_iff.mpr h]

/-- What the hunks show up to some place, and behind it, are edits of the script in order. -/
theorem shown_sublist (hhs : hunks before after = hs ++ [last]) (hlast : last.edits = es ++ rest) :
    ((hs.flatMap Hunk.edits ++ es) ++ rest).Sublist
      (edits (script (lines before) (lines after))) := by
  have hall : ((hunks before after).flatMap Hunk.edits).Sublist
      (edits (script (lines before) (lines after))) := edits_ofScript_sublist
  rwa [hhs, List.flatMap_append, List.flatMap_singleton, hlast, ← List.append_assoc] at hall

/-- Hunks up to some place are lines of the diff if the lines that they show are ended. -/
theorem lines_unified (hpath : unbroken path.toList = true)
    (hhs : hunks before after = hs ++ [last]) (hlast : last.edits = es ++ rest)
    (hended : ∀ e ∈ hs.flatMap Hunk.edits ++ es, ended e.line = true) (hrest : rest ≠ []) :
    lines (unified before after path) = fileLines path ++ (hs.flatMap Hunk.lines ++
      (last.header.toList :: (es.map Edit.text ++ lines (rest.flatMap Edit.text)))) := by
  have htext : ∀ e ∈ hs.flatMap Hunk.edits ++ es, ClosedLine e.text := by
    intro e he
    have hscript := (shown_sublist hhs hlast).subset (List.mem_append_left rest he)
    exact closedLine_text (lines_line_of_mem hscript) (hended e he)
  have hclosed : ∀ l ∈ fileLines path ++ (hs.flatMap Hunk.lines ++
      (last.header.toList :: es.map Edit.text)), ClosedLine l := by
    intro l hl
    simp only [List.mem_append, List.mem_flatMap, List.mem_cons, List.mem_map, Hunk.lines] at hl
    rcases hl with hl | ⟨h, hh, rfl | ⟨e, he, rfl⟩⟩ | rfl | ⟨e, he, rfl⟩
    · exact closedLine_fileLines hpath hl
    · exact closedLine_header h
    · exact htext e (List.mem_append_left _ (List.mem_flatMap.mpr ⟨h, hh, he⟩))
    · exact closedLine_header last
    · exact htext e (List.mem_append_right _ he)
  have hnext : (rest.flatMap Edit.text).head? ≠ some '\n' := by
    obtain ⟨e, rest, rfl⟩ := List.exists_cons_of_ne_nil hrest
    cases e <;> simp [Edit.text]
  have hwhole : unified before after path = (fileLines path ++ (hs.flatMap Hunk.lines ++
      (last.header.toList :: es.map Edit.text))).flatten ++ rest.flatMap Edit.text := by
    rw [unified_of_hunks (by rw [hhs]; simp), hhs, ← flatten_fileLines]
    simp [Hunk.text, hlast, flatten_hunkLines, ← List.flatMap_def]
  rw [hwhole, lines_flatten_append hclosed hnext]
  simp

/-- Unless a line joins the next one, the diff is read as it was written. -/
theorem readPatch?_of_not_joined (hpath : unbroken path.toList = true)
    (hjoined : ¬Joined before after) :
    readPatch? path (unified before after path) = some (hunks before after) := by
  rcases List.eq_nil_or_concat (hunks before after) with hnil | ⟨hs, last, hhs⟩
  · rw [unified, hnil]
    rfl
  · rw [List.concat_eq_append] at hhs
    have hne : last.edits ≠ [] :=
      edits_ne_nil_of_mem_ofScript (by decide) (show last ∈ hunks before after by simp [hhs])
    obtain ⟨es, e, hlast⟩ := (List.eq_nil_or_concat last.edits).resolve_left hne
    rw [List.concat_eq_append] at hlast
    have hsub := shown_sublist hhs hlast
    have hended : ∀ f ∈ hs.flatMap Hunk.edits ++ es, ended f.line = true := by
      intro f hf
      obtain ⟨front, back, hscript, hfront, hback⟩ := List.append_sublist_iff.mp hsub
      obtain ⟨front, middle, rfl⟩ := List.append_of_mem (hfront.subset hf)
      rw [List.append_assoc, List.cons_append] at hscript
      refine ended_of_not_joined hjoined hscript (List.append_ne_nil_of_right_ne_nil _ ?_)
      exact List.ne_nil_of_mem (hback.subset List.mem_cons_self)
    have hline : lines ([e].flatMap Edit.text) = [e.text] := by
      rw [List.flatMap_singleton]
      exact lines_text (lines_line_of_mem (hsub.subset (by simp)))
    have hlines : lines (unified before after path) =
        fileLines path ++ (hunks before after).flatMap Hunk.lines := by
      rw [lines_unified hpath hhs hlast hended (by simp), hline, hhs, List.flatMap_append,
        List.flatMap_singleton, Hunk.lines, hlast, List.map_append, List.map_singleton]
    rw [readPatch?_of_lines hlines, readLines_hunks]

/-- Lines that are put in last are ended but for the last of them. -/
theorem lines_added {front : List (Edit Text)} {added : List Text}
    (hscript : edits (script (lines before) (lines after)) = front ++ added.map Edit.added)
    (hadded : added ≠ []) :
    lines ((added.map Edit.added).flatMap Edit.text) = (added.map Edit.added).map Edit.text := by
  obtain ⟨others, final, rfl⟩ := (List.eq_nil_or_concat added).resolve_left hadded
  rw [List.concat_eq_append] at hscript ⊢
  have hline : ∀ l ∈ others ++ [final], lines l = [l] := fun l hl => by
    have hmem : Edit.added l ∈ edits (script (lines before) (lines after)) := by
      rw [hscript]
      exact List.mem_append_right _ (List.mem_map_of_mem hl)
    exact lines_line_of_mem hmem
  have hclosed : ∀ t ∈ (others.map Edit.added).map Edit.text, ClosedLine t := by
    intro t ht
    simp only [List.map_map, List.mem_map, Function.comp_apply] at ht
    obtain ⟨l, hl, rfl⟩ := ht
    refine closedLine_text (hline l (by simp [hl])) ?_
    by_contra hended
    obtain ⟨others, back, rfl⟩ := List.append_of_mem hl
    have hscript : edits (script (lines before) (lines after)) =
        (front ++ others.map Edit.added) ++ Edit.added l :: (back ++ [final]).map Edit.added := by
      simpa using hscript
    simpa [Edit.new?] using
      eq_nil_of_not_ended (filterMap_new_script hscript) rfl (Bool.eq_false_iff.mpr hended)
  have hfinal : lines (Edit.added final).text = [(Edit.added final).text] :=
    lines_text (hline final (by simp))
  have hall := lines_flatten_concat hclosed hfinal (head?_text _)
  simpa [List.flatMap_def] using hall

/-- A line without terminator that is taken out runs on into the first one that is put in. -/
theorem lines_joined {front : List (Edit Text)} {line next : Text} {others : List Text}
    (hscript : edits (script (lines before) (lines after)) =
      front ++ Edit.removed line :: (next :: others).map Edit.added)
    (hended : ended line = false) :
    lines ((Edit.removed line :: (next :: others).map Edit.added).flatMap Edit.text) =
      (Edit.removed (line ++ '+' :: next) :: others.map Edit.added).map Edit.text := by
  have hline : lines line = [line] := by
    have hmem : Edit.removed line ∈ edits (script (lines before) (lines after)) := by
      simp [hscript]
    exact lines_line_of_mem hmem
  have hunbroken : unbroken (['-'] ++ line) = true :=
    unbroken_append.mpr ⟨by decide, unbroken_of_not_ended hline hended⟩
  have hbehind : edits (script (lines before) (lines after)) =
      (front ++ [Edit.removed line]) ++ (next :: others).map Edit.added := by
    simpa using hscript
  have hadded := lines_added hbehind (by simp)
  rw [List.map_cons, List.map_cons] at hadded
  rw [List.flatMap_cons]
  exact lines_unbroken_append hunbroken hadded

/-- Where a line joins the next one, the diff is not read. -/
theorem readPatch?_of_joined (hpath : unbroken path.toList = true)
    (hjoined : Joined before after) : readPatch? path (unified before after path) = none := by
  obtain ⟨front, line, added, hscript, hadded, hunended⟩ := hjoined
  have hending : ∀ e ∈ Edit.removed line :: added.map Edit.added, e.IsChange := by
    simp only [List.mem_cons, List.mem_map]
    rintro _ (rfl | ⟨_, _, rfl⟩) _ ⟨⟩
  obtain ⟨hs, last, es, hhs, hlast⟩ : ∃ hs last es, hunks before after = hs ++ [last] ∧
      last.edits = es ++ Edit.removed line :: added.map Edit.added :=
    exists_last_ofScript hending (by simp) hscript
  have hsub : (hs.flatMap Hunk.edits ++ es).Sublist front := by
    have hall := shown_sublist hhs hlast
    rw [hscript] at hall
    exact (List.append_sublist_append_right _).mp hall
  have hended : ∀ e ∈ hs.flatMap Hunk.edits ++ es, ended e.line = true :=
    fun e he => ended_of_joined hscript hadded (hsub.subset he)
  obtain ⟨next, others, rfl⟩ := List.exists_cons_of_ne_nil hadded
  have hlines := lines_unified hpath hhs hlast hended (by simp)
  rw [lines_joined hscript hunended, ← List.map_append] at hlines
  -- one line is missing of those that the heading of the last hunk announces
  have hcount : ((es ++ Edit.removed (line ++ '+' :: next) ::
      others.map Edit.added).filterMap Edit.new?).length ≠ last.new.length := by
    rw [Hunk.new, hlast]
    simp [List.filterMap_cons, Edit.new?]
  have hnil : readLines [] = some ([], []) := rfl
  have hcut := readLines_edits (es ++ Edit.removed (line ++ '+' :: next) ::
    others.map Edit.added) hnil
  rw [List.append_nil, List.append_nil] at hcut
  have hnone := readLines_header last hcut
  rw [hunk?_header_eq_none last hcount, Option.map_none] at hnone
  rw [readPatch?_of_lines hlines, readLines_append_eq_none hnone]

/--
For a path without line breaks a diff is, read line by line, a patch from the lines of
one text to those of the other, unless a last line without terminator is taken out and
others are put in its place.  The hunks that it is written from are always such a patch.
It is empty for equal texts, and for no others.
-/
theorem unified_reads_back_iff (before after : Text) {path : String}
    (hpath : unbroken path.toList = true) :
    ((∃ hs, readPatch? path (unified before after path) = some hs ∧
        Patches hs (lines before) (lines after)) ↔ ¬Joined before after) ∧
      (¬Joined before after →
        readPatch? path (unified before after path) = some (hunks before after)) ∧
      Patches (hunks before after) (lines before) (lines after) ∧
      (unified before after path = [] ↔ before = after) ∧
      (Joined before after → before ≠ [] ∧ ended before = false) := by
  refine ⟨⟨?_, fun hjoined => ?_⟩, readPatch?_of_not_joined hpath, patches_hunks before after,
    unified_eq_nil, not_ended_of_joined⟩
  · rintro ⟨hs, hread, -⟩ hjoined
    rw [readPatch?_of_joined hpath hjoined] at hread
    cases hread
  · exact ⟨_, readPatch?_of_not_joined hpath hjoined, patches_hunks before after⟩

/-- A page whose only line is replaced: its line has a terminator, so that the diff is a patch. -/
theorem unified_reads_back_terminated : unbroken "page.html".toList = true ∧
    ∃ hs, readPatch? "page.html" (unified "<p>a</p>\n".toList "<p>b</p>".toList "page.html") =
        some hs ∧
      Patches hs (lines "<p>a</p>\n".toList) (lines "<p>b</p>".toList) := by
  have hpath : unbroken "page.html".toList = true := by decide
  have hall := unified_reads_back_iff "<p>a</p>\n".toList "<p>b</p>".toList hpath
  refine ⟨hpath, hall.1.mpr fun hjoined => ?_⟩
  exact absurd (hall.2.2.2.2 hjoined).2 (by decide)

/-- Without the terminator the line that goes and the one that comes are one line of the diff. -/
theorem unified_joins_last_line :
    "-a+b".toList ∈ lines (unified "a".toList "b".toList "page.html") ∧
      "a+b".toList ∉ lines "a".toList ∧
      ¬∃ hs, readPatch? "page.html" (unified "a".toList "b".toList "page.html") = some hs ∧
        Patches hs (lines "a".toList) (lines "b".toList) := by
  have htext : unified "a".toList "b".toList "page.html" =
      "--- page.html (current)\n+++ page.html (updated)\n@@ -1 +1 @@\n-a+b".toList := by
    decide +kernel
  have hread : readPatch? "page.html" (unified "a".toList "b".toList "page.html") = none := by
    rw [htext]
    decide +kernel
  refine ⟨by rw [htext]; decide, by decide, ?_⟩
  rintro ⟨hs, hsome, -⟩
  rw [hread] at hsome
  cases hsome

end Text

end PageManifest.Diff
