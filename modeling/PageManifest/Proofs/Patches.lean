import PageManifest.Proofs.Scripts

/-!
# Hunks as patches

Hunks are replayed on the first sequence in order.  A hunk starts behind the one in
front of it, what lies between them is taken over, and what it keeps or takes out
must be what the sequence has there.  The hunks of a script replay to the second
sequence, whatever context they show.
-/

namespace PageManifest.Diff

variable {α : Type}

namespace Edit

theorem filterMap_old_kept (items : List α) : (items.map kept).filterMap old? = items := by
  rw [List.filterMap_map]
  exact List.filterMap_some

theorem filterMap_new_kept (items : List α) : (items.map kept).filterMap new? = items := by
  rw [List.filterMap_map]
  exact List.filterMap_some

@[simp] theorem filterMap_old_ofSegment (s : Segment α) : (ofSegment s).filterMap old? = s.old := by
  cases s with
  | same items => exact filterMap_old_kept items
  | changed old new =>
      simp [ofSegment, old?, Segment.old, List.filterMap_map, Function.comp_def]

@[simp] theorem filterMap_new_ofSegment (s : Segment α) : (ofSegment s).filterMap new? = s.new := by
  cases s with
  | same items => exact filterMap_new_kept items
  | changed old new =>
      simp [ofSegment, new?, Segment.new, List.filterMap_map, Function.comp_def]

/-- Whether an edit is shown for its own sake and not for context. -/
def IsChange (e : Edit α) : Prop :=
  ∀ x, e ≠ kept x

end Edit

theorem filterMap_old_edits (script : List (Segment α)) :
    (edits script).filterMap Edit.old? = script.flatMap Segment.old := by
  simp [edits, List.filterMap_flatMap]

theorem filterMap_new_edits (script : List (Segment α)) :
    (edits script).filterMap Edit.new? = script.flatMap Segment.new := by
  simp [edits, List.filterMap_flatMap]

/--
Replays hunks on what is left of a sequence behind its first `oldDone` items, when
`newDone` items are written.
-/
def replayFrom [DecidableEq α] :
    (oldDone newDone : Nat) → (rest : List α) → List (Hunk α) → Option (List α)
  | _, _, rest, [] => some rest
  | oldDone, newDone, rest, h :: hs =>
      let gap := h.oldStart - oldDone
      if oldDone ≤ h.oldStart ∧ gap ≤ rest.length ∧ h.newStart = newDone + gap ∧
          h.old <+: rest.drop gap then
        (replayFrom (h.oldStart + h.old.length) (h.newStart + h.new.length)
          (rest.drop (gap + h.old.length)) hs).map (rest.take gap ++ h.new ++ ·)
      else none

/-- What hunks make of a sequence; nothing where they do not fit it. -/
def replay [DecidableEq α] (old : List α) (hs : List (Hunk α)) : Option (List α) :=
  replayFrom 0 0 old hs

/--
Hunks that lead from one sequence to another.  What a hunk keeps or takes out stands
in the first sequence where the hunk says, and what it keeps or puts in stands in
the second.
-/
structure Patches [DecidableEq α] (hs : List (Hunk α)) (old new : List α) : Prop where
  replays : replay old hs = some new
  takes : ∀ h ∈ hs, h.old <+: old.drop h.oldStart
  gives : ∀ h ∈ hs, h.new <+: new.drop h.newStart

namespace Hunk

theorem old_append (h : Hunk α) (es : List (Edit α)) :
    (h.append es).old = h.old ++ es.filterMap Edit.old? :=
  List.filterMap_append

theorem new_append (h : Hunk α) (es : List (Edit α)) :
    (h.append es).new = h.new ++ es.filterMap Edit.new? :=
  List.filterMap_append

theorem old_append_kept (h : Hunk α) (items : List α) :
    (h.append (items.map .kept)).old = h.old ++ items := by
  rw [old_append, Edit.filterMap_old_kept]

theorem new_append_kept (h : Hunk α) (items : List α) :
    (h.append (items.map .kept)).new = h.new ++ items := by
  rw [new_append, Edit.filterMap_new_kept]

theorem changes_iff {h : Hunk α} : h.changes = true ↔ ∃ e ∈ h.edits, e.IsChange := by
  rw [changes, List.any_eq_true]
  refine exists_congr fun e => and_congr_right fun _ => ?_
  cases e <;> simp [Edit.IsChange]

/-- A hunk without changes keeps what it shows. -/
theorem new_eq_old_of_not_changes {h : Hunk α} (hc : ¬h.changes = true) : h.new = h.old := by
  rw [changes_iff] at hc
  refine List.filterMap_congr fun e he => ?_
  cases e with
  | kept x => rfl
  | removed x => exact absurd ⟨_, he, by rintro _ ⟨⟩⟩ hc
  | added x => exact absurd ⟨_, he, by rintro _ ⟨⟩⟩ hc

@[simp] theorem old_opening (context oldStart newStart : Nat) (run : List α) :
    (opening context oldStart newStart run).old = run.drop (run.length - context) :=
  Edit.filterMap_old_kept _

@[simp] theorem new_opening (context oldStart newStart : Nat) (run : List α) :
    (opening context oldStart newStart run).new = run.drop (run.length - context) :=
  Edit.filterMap_new_kept _

end Hunk

section

variable [DecidableEq α] {context oldDone newDone : Nat} {h : Hunk α} {gap out : List α}
  {segs : List (Segment α)}

theorem replayFrom_nil (oldDone newDone : Nat) (rest : List α) :
    replayFrom oldDone newDone rest [] = some rest :=
  rfl

/-- A hunk that fits writes what lies in front of it and what it has of the second sequence. -/
theorem replayFrom_cons (rest : List α) (hs : List (Hunk α))
    (hold : h.oldStart = oldDone + gap.length) (hnew : h.newStart = newDone + gap.length) :
    replayFrom oldDone newDone (gap ++ (h.old ++ rest)) (h :: hs) =
      (replayFrom (h.oldStart + h.old.length) (h.newStart + h.new.length) rest hs).map
        (gap ++ h.new ++ ·) := by
  have hgap : h.oldStart - oldDone = gap.length := by omega
  rw [replayFrom, hgap, if_pos]
  · rw [← List.drop_drop, List.drop_left, List.drop_left, List.take_left]
  · refine ⟨by omega, by simp, hnew, ?_⟩
    rw [List.drop_left]
    exact List.prefix_append _ _

/-- A hunk that fits and goes on with some context writes that, too. -/
theorem replayFrom_append_kept (front back : List α) (hs : List (Hunk α))
    (hold : h.oldStart = oldDone + gap.length) (hnew : h.newStart = newDone + gap.length) :
    replayFrom oldDone newDone (gap ++ (h.old ++ (front ++ back)))
        (h.append (front.map .kept) :: hs) =
      (replayFrom (h.oldStart + h.old.length + front.length)
        (h.newStart + h.new.length + front.length) back hs).map
          (gap ++ (h.new ++ front) ++ ·) := by
  have hstep := replayFrom_cons (h := h.append (front.map .kept)) back hs hold hnew
  rw [Hunk.old_append_kept, Hunk.new_append_kept, List.length_append, List.length_append,
    ← Nat.add_assoc, ← Nat.add_assoc, List.append_assoc] at hstep
  exact hstep

omit [DecidableEq α] in
/-- A long run falls into two contexts and what is not shown between them. -/
theorem exists_skipped {run : List α} (hlong : 2 * context < run.length) :
    ∃ skipped, skipped.length + 2 * context = run.length ∧
      ∀ tail, run ++ tail =
        run.take context ++ (skipped ++ (run.drop (run.length - context) ++ tail)) := by
  have hfront : (run.take (run.length - context)).take context = run.take context := by
    rw [List.take_take, Nat.min_eq_left (by omega)]
  refine ⟨(run.take (run.length - context)).drop context, by simp; omega, fun tail => ?_⟩
  rw [← hfront, ← List.append_assoc, List.take_append_drop, ← List.append_assoc,
    List.take_append_drop]

/-- The hunks of the rest of a script, behind what is in `h` already, replay that rest. -/
theorem replayFrom_ofSegments (context : Nat) (segs : List (Segment α))
    (hold : h.oldStart = oldDone + gap.length) (hnew : h.newStart = newDone + gap.length) :
    replayFrom oldDone newDone (gap ++ (h.old ++ segs.flatMap Segment.old))
        (Hunk.ofSegments context h segs) =
      some (gap ++ (h.new ++ segs.flatMap Segment.new)) := by
  fun_induction Hunk.ofSegments context h segs generalizing oldDone newDone gap with
  | case1 h hc =>
      have hstep := replayFrom_cons [] [] hold hnew
      simpa [replayFrom_nil] using hstep
  | case2 h hc => simp [replayFrom_nil, Hunk.new_eq_old_of_not_changes hc]
  | case3 h old new rest ih =>
      have hrest := ih hold hnew
      simpa [Hunk.old_append, Hunk.new_append, Segment.old, Segment.new] using hrest
  | case4 h run rest hempty hc =>
      obtain rfl := List.isEmpty_iff.mp hempty
      have hstep := replayFrom_append_kept (run.take context) (run.drop context) [] hold hnew
      rw [List.take_append_drop] at hstep
      simpa [replayFrom_nil, Segment.old, Segment.new] using hstep
  | case5 h run rest hempty hc =>
      simp [replayFrom_nil, Hunk.new_eq_old_of_not_changes hc, List.isEmpty_iff.mp hempty,
        Segment.old, Segment.new]
  | case6 h run rest hempty hlong ih =>
      obtain ⟨skipped, hskipped, hrun⟩ := exists_skipped hlong
      have hcontext : (run.take context).length = context := by
        rw [List.length_take]
        omega
      have hrest := @ih (h.oldStart + h.old.length + context) (h.newStart + h.new.length + context)
        skipped (by simp only [Hunk.opening]; omega) (by simp only [Hunk.opening]; omega)
      rw [Hunk.old_opening, Hunk.new_opening] at hrest
      rw [List.flatMap_cons, Segment.old, hrun, replayFrom_append_kept _ _ _ hold hnew, hcontext,
        hrest, List.flatMap_cons, Segment.new, hrun]
      simp only [Option.map_some, List.append_assoc]
  | case7 h run rest hempty hshort ih =>
      have hrest := ih hold hnew
      simpa [Hunk.old_append_kept, Hunk.new_append_kept, Segment.old, Segment.new] using hrest

/-- Hunks that replay stand where they say, in both sequences. -/
theorem prefix_of_replayFrom {rest : List α} {hs : List (Hunk α)}
    (hreplay : replayFrom oldDone newDone rest hs = some out) :
    ∀ h ∈ hs, (oldDone ≤ h.oldStart ∧ h.old <+: rest.drop (h.oldStart - oldDone)) ∧
      newDone ≤ h.newStart ∧ h.new <+: out.drop (h.newStart - newDone) := by
  induction hs generalizing oldDone newDone rest out with
  | nil => simp
  | cons first hs ih =>
      rw [replayFrom] at hreplay
      split at hreplay
      · rename_i hfits
        obtain ⟨hold, hgap, hnew, htakes⟩ := hfits
        obtain ⟨tail, htail, rfl⟩ := Option.map_eq_some_iff.mp hreplay
        have hlen : (rest.take (first.oldStart - oldDone)).length = first.oldStart - oldDone := by
          rw [List.length_take]
          omega
        rintro h (_ | ⟨_, hmem⟩)
        · refine ⟨⟨hold, htakes⟩, by omega, ?_⟩
          rw [List.append_assoc, List.drop_left' (by omega)]
          exact List.prefix_append _ _
        · obtain ⟨⟨hbehind, hprefix⟩, hbehind', hprefix'⟩ := ih htail h hmem
          rw [List.drop_drop] at hprefix
          refine ⟨⟨by omega, ?_⟩, by omega, ?_⟩
          · convert hprefix using 2
            omega
          · convert hprefix' using 1
            have hplace : h.newStart - newDone =
                (rest.take (first.oldStart - oldDone) ++ first.new).length +
                  (h.newStart - (first.newStart + first.new.length)) := by
              rw [List.length_append, hlen]
              omega
            rw [hplace, ← List.drop_drop, List.drop_left]
      · cases hreplay

/-- Hunks that replay are a patch. -/
theorem patches_of_replay {old new : List α} {hs : List (Hunk α)}
    (hreplay : replay old hs = some new) : Patches hs old new where
  replays := hreplay
  takes h hmem := (prefix_of_replayFrom hreplay h hmem).1.2
  gives h hmem := (prefix_of_replayFrom hreplay h hmem).2.2

/-- The hunks of a script are a patch between the sequences it is of. -/
theorem patches_ofScript (context : Nat) (segs : List (Segment α)) :
    Patches (Hunk.ofScript context segs) (segs.flatMap Segment.old)
      (segs.flatMap Segment.new) := by
  refine patches_of_replay ?_
  rw [replay]
  unfold Hunk.ofScript
  split
  · rename_i run rest
    -- the run falls into what is not shown and the context of the first change
    let skipped := run.take (run.length - context)
    have hlen : (Hunk.opening context 0 0 run).oldStart = 0 + skipped.length := by
      simp [Hunk.opening, skipped]
    have hreplay := replayFrom_ofSegments context rest hlen hlen
    rw [Hunk.old_opening, Hunk.new_opening, ← List.append_assoc, ← List.append_assoc,
      List.take_append_drop] at hreplay
    exact hreplay
  · have hreplay : replayFrom 0 0 ([] ++ (Hunk.old ⟨0, 0, []⟩ ++ segs.flatMap Segment.old)) _ = _ :=
      replayFrom_ofSegments context segs rfl rfl
    exact hreplay

end

section

variable {context : Nat} {h last : Hunk α} {hs : List (Hunk α)} {segs : List (Segment α)}
  {front ending : List (Edit α)}

/-- Hunks show edits of the script, in its order. -/
theorem edits_ofSegments_sublist :
    ((Hunk.ofSegments context h segs).flatMap Hunk.edits).Sublist (h.edits ++ edits segs) := by
  fun_induction Hunk.ofSegments context h segs with
  | case1 h hc => simp [edits]
  | case2 h hc => simp
  | case3 h old new rest ih => simpa [Hunk.append] using ih
  | case4 h run rest hempty hc =>
      have htake := ((List.take_sublist context run).map Edit.kept).append_left h.edits
      simpa [Hunk.append, List.isEmpty_iff.mp hempty, Edit.ofSegment, edits] using htake
  | case5 h run rest hempty hc => simp
  | case6 h run rest hempty hlong ih =>
      obtain ⟨skipped, -, hrun⟩ := exists_skipped hlong
      have hshown : (run.take context ++ run.drop (run.length - context)).Sublist run := by
        conv_rhs => rw [← List.append_nil run, hrun []]
        rw [List.append_nil]
        exact (List.sublist_append_right _ _).append_left _
      have hall := (hshown.map Edit.kept).append_right (edits rest)
      rw [List.map_append, List.append_assoc] at hall
      rw [List.flatMap_cons, edits_cons, Edit.ofSegment, Hunk.append, List.append_assoc]
      exact ((ih.append_left _).trans hall).append_left _
  | case7 h run rest hempty hshort ih => simpa [Hunk.append, Edit.ofSegment] using ih

theorem edits_ofScript_sublist :
    ((Hunk.ofScript context segs).flatMap Hunk.edits).Sublist (edits segs) := by
  unfold Hunk.ofScript
  split
  · rename_i run rest
    have hdrop := ((List.drop_sublist (run.length - context) run).map Edit.kept).append_right
      (edits rest)
    exact edits_ofSegments_sublist.trans hdrop
  · exact edits_ofSegments_sublist

theorem edits_ne_nil_of_changes (hc : h.changes = true) : h.edits ≠ [] := by
  obtain ⟨e, he, -⟩ := Hunk.changes_iff.mp hc
  exact List.ne_nil_of_mem he

theorem edits_append_ne_nil (es : List (Edit α)) (hne : h.edits ≠ []) :
    (h.append es).edits ≠ [] :=
  List.append_ne_nil_of_left_ne_nil hne es

/-- Hunks with context show something. -/
theorem edits_ne_nil_of_mem_ofSegments (hcontext : 0 < context)
    (hlast : last ∈ Hunk.ofSegments context h segs) : last.edits ≠ [] := by
  fun_induction Hunk.ofSegments context h segs with
  | case1 h hc =>
      obtain rfl := List.mem_singleton.mp hlast
      exact edits_ne_nil_of_changes hc
  | case2 h hc => cases hlast
  | case3 h old new rest ih => exact ih hlast
  | case4 h run rest hempty hc =>
      obtain rfl := List.mem_singleton.mp hlast
      exact edits_append_ne_nil _ (edits_ne_nil_of_changes hc)
  | case5 h run rest hempty hc => cases hlast
  | case6 h run rest hempty hlong ih =>
      rcases List.mem_cons.mp hlast with rfl | hlast
      · refine List.append_ne_nil_of_right_ne_nil _ (List.ne_nil_of_length_pos ?_)
        rw [List.length_map, List.length_take]
        omega
      · exact ih hlast
  | case7 h run rest hempty hshort ih => exact ih hlast

theorem edits_ne_nil_of_mem_ofScript (hcontext : 0 < context)
    (hlast : last ∈ Hunk.ofScript context segs) : last.edits ≠ [] := by
  unfold Hunk.ofScript at hlast
  split at hlast
  · exact edits_ne_nil_of_mem_ofSegments hcontext hlast
  · exact edits_ne_nil_of_mem_ofSegments hcontext hlast

/-- Changes behind an item that stays do not reach back over it. -/
theorem exists_eq_append_of_kept {es rest : List (Edit α)} {run : List α} (hrun : run ≠ [])
    (hending : ∀ e ∈ ending, e.IsChange)
    (heq : (es ++ run.map .kept) ++ rest = front ++ ending) : ∃ mid, rest = mid ++ ending := by
  rcases List.append_eq_append_iff.mp heq with ⟨mid, -, hmid⟩ | ⟨mid, hfront, rfl⟩
  · exact ⟨mid, hmid⟩
  · rcases List.eq_nil_or_concat mid with rfl | ⟨mid, e, rfl⟩
    · exact ⟨[], rfl⟩
    · obtain ⟨items, x, rfl⟩ := (List.eq_nil_or_concat run).resolve_left hrun
      rw [List.concat_eq_append, List.map_append, ← List.append_assoc, List.concat_eq_append,
        ← List.append_assoc] at hfront
      obtain rfl : Edit.kept x = e := by simpa using (List.append_inj' hfront rfl).2
      exact absurd rfl (hending _ (by simp) x)

theorem changes_of_ending (hending : ∀ e ∈ ending, e.IsChange) (hne : ending ≠ [])
    (heq : h.edits = front ++ ending) : h.changes = true := by
  obtain ⟨e, he⟩ := List.exists_mem_of_ne_nil _ hne
  exact Hunk.changes_iff.mpr ⟨e, by simp [heq, he], hending e he⟩

/-- Where the edits of a script end in changes, its last hunk ends in them. -/
theorem exists_last_ofSegments (hending : ∀ e ∈ ending, e.IsChange) (hne : ending ≠ [])
    (heq : h.edits ++ edits segs = front ++ ending) :
    ∃ hs last front, Hunk.ofSegments context h segs = hs ++ [last] ∧
      last.edits = front ++ ending := by
  fun_induction Hunk.ofSegments context h segs generalizing front with
  | case1 h hc => exact ⟨[], h, front, rfl, by simpa [edits] using heq⟩
  | case2 h hc =>
      have heq : h.edits = front ++ ending := by simpa [edits] using heq
      exact absurd (changes_of_ending hending hne heq) hc
  | case3 h old new rest ih => exact ih (by simpa [Hunk.append] using heq)
  | case4 h run rest hempty hc =>
      obtain rfl := List.isEmpty_iff.mp hempty
      rcases eq_or_ne run [] with rfl | hrun
      · exact ⟨[], _, front, rfl, by simpa [edits, Hunk.append, Edit.ofSegment] using heq⟩
      · rw [edits_cons, ← List.append_assoc] at heq
        obtain ⟨mid, hmid⟩ := exists_eq_append_of_kept hrun hending heq
        exact absurd (List.append_eq_nil_iff.mp hmid.symm).2 hne
  | case5 h run rest hempty hc =>
      obtain rfl := List.isEmpty_iff.mp hempty
      rcases eq_or_ne run [] with rfl | hrun
      · have heq : h.edits = front ++ ending := by simpa [edits, Edit.ofSegment] using heq
        exact absurd (changes_of_ending hending hne heq) hc
      · rw [edits_cons, ← List.append_assoc] at heq
        obtain ⟨mid, hmid⟩ := exists_eq_append_of_kept hrun hending heq
        exact absurd (List.append_eq_nil_iff.mp hmid.symm).2 hne
  | case6 h run rest hempty hlong ih =>
      have hrun : run ≠ [] := List.ne_nil_of_length_pos (by omega)
      rw [edits_cons, ← List.append_assoc] at heq
      obtain ⟨mid, hmid⟩ := exists_eq_append_of_kept hrun hending heq
      obtain ⟨hs, last, front, hhs, hlast⟩ := ih (by rw [hmid, ← List.append_assoc])
      exact ⟨_ :: hs, last, front, by rw [hhs, List.cons_append], hlast⟩
  | case7 h run rest hempty hshort ih =>
      exact ih (by simpa [Hunk.append, Edit.ofSegment] using heq)

theorem exists_last_ofScript (hending : ∀ e ∈ ending, e.IsChange) (hne : ending ≠ [])
    (heq : edits segs = front ++ ending) :
    ∃ hs last front, Hunk.ofScript context segs = hs ++ [last] ∧ last.edits = front ++ ending := by
  unfold Hunk.ofScript
  split
  · rename_i run rest
    rcases eq_or_ne run [] with rfl | hrun
    · have hopening : (Hunk.opening context 0 0 ([] : List α)).edits = [] := by simp [Hunk.opening]
      exact exists_last_ofSegments hending hne (by rw [hopening]; exact heq)
    · have heq : ([] ++ run.map Edit.kept) ++ edits rest = front ++ ending := heq
      obtain ⟨mid, hmid⟩ := exists_eq_append_of_kept hrun hending heq
      exact exists_last_ofSegments hending hne (by rw [hmid, ← List.append_assoc])
  · exact exists_last_ofSegments hending hne heq

end

section

variable [DecidableEq α] {old new : List α}

/-- Equal sequences have no hunks, and sequences without hunks are equal. -/
theorem ofScript_eq_nil_iff (context : Nat) :
    Hunk.ofScript context (script old new) = [] ↔ old = new := by
  constructor
  · intro h
    have hpatches := patches_ofScript context (script old new)
    rw [h, script_old, script_new] at hpatches
    exact Option.some.inj hpatches.replays
  · rintro rfl
    have hopening : ∀ run : List α, ¬(Hunk.opening context 0 0 run).changes = true := by
      intro run hc
      obtain ⟨e, he, hchange⟩ := Hunk.changes_iff.mp hc
      obtain ⟨x, -, rfl⟩ := List.mem_map.mp he
      exact hchange x rfl
    rw [script_self]
    split
    · rfl
    · exact if_neg (hopening old)

end

end PageManifest.Diff
