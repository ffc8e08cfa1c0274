import PageManifest.Inline
import PageManifest.Proofs.Element
import PageManifest.Proofs.Payload

/-! # Where embedding and removing cut a document

Both operations walk the document once.  What they do is a cut: embedding keeps
what stands in front of the first element, or of the place for one, and what
stands behind; removing keeps the pieces between elements.  In either case the
blanks at a cut are dropped.
-/

namespace PageManifest

namespace Markup.Element

theorem padded?_of_silent {s u : Text} (hs : Text.Silent here? s u) (htight : Text.Tight s)
    (hne : s ≠ []) (inRun : Bool) : padded? inRun (s ++ u) = none := by
  unfold padded?
  cases inRun with
  | true =>
      have quiet := hs [] s rfl hne
      simp [quiet]
  | false =>
      obtain ⟨a, b, hab, hb, htrim⟩ := Text.trimStart_append_of_tight htight hne u
      have quiet := hs a b hab hb
      simp [htrim, quiet]

/-- A walk over a tight text in which no element begins goes on by a character. -/
theorem walk_step {c : Char} {s u : Text} (hs : Text.Silent here? (c :: s) u)
    (htight : Text.Tight (c :: s)) (inRun : Bool) : padded? inRun (c :: (s ++ u)) = none ∧
      Text.Silent here? s u ∧ Text.Tight s ∧ (s = [] → Text.isBlank c = false) := by
  refine ⟨padded?_of_silent hs htight (by simp) inRun, (Text.silent_cons_iff.mp hs).2,
    htight.of_append (s := [c]), ?_⟩
  intro hnil
  exact htight [] c (by simp [hnil])

theorem padded?_of_find?_none {t : Text} (h : find? t = none) (inRun : Bool) :
    padded? inRun t = none := by
  have hs := find?_eq_none_iff.mp h
  have quiet : ∀ a b, t = a ++ b → here? b = none := by
    intro a b hab
    cases b with
    | nil => rfl
    | cons c b => simpa using hs a (c :: b) hab (by simp)
  unfold padded?
  cases inRun with
  | true => simp [quiet [] t rfl]
  | false =>
      obtain ⟨blanks, hcut, -⟩ := Text.blanks_append_trimStart t
      simp [quiet blanks (Text.trimStart t) hcut]

theorem find?_tail_of_none {c : Char} {t : Text} (h : find? (c :: t) = none) : find? t = none :=
  find?_eq_none_iff.mpr (Text.silent_cons_iff.mp (find?_eq_none_iff.mp h)).2

theorem padded?_blanks_append {blanks rest : Text} {e : Element}
    (hblanks : ∀ c ∈ blanks, Text.isBlank c = true) (he : IsElement e) :
    padded? false (blanks ++ (e.text ++ rest)) = some (e, Text.trimStart rest) := by
  obtain ⟨tail, htail⟩ := text_lt_head he
  have htrim : Text.trimStart (blanks ++ (e.text ++ rest)) = e.text ++ rest := by
    rw [Text.trimStart_append_of_blank hblanks, htail]
    rfl
  have hhere : here? (e.text ++ rest) = some (e, rest) := here?_eq_some_iff.mpr ⟨rfl, he⟩
  simp [padded?, htrim, hhere]

end Markup.Element

namespace Inline

open Markup

/-! ## Removing -/

/-- What removing keeps of a document: the pieces between elements, without the blanks at a cut. -/
def pieces (t : Text) : List Text :=
  match _h : Element.find? t with
  | none => [t]
  | some f => Text.trimEnd f.before :: pieces (Text.trimStart f.after)
termination_by t.length
decreasing_by
  have hafter := Text.findFirst_after_length (fun _ _ _ h => Element.here?_length h) _h
  have htrim := Text.length_trimStart_le f.after
  omega

theorem pieces_eq (t : Text) : pieces t = match Element.find? t with
    | none => [t]
    | some f => Text.trimEnd f.before :: pieces (Text.trimStart f.after) := by
  rw [pieces]
  split <;> rename_i h <;> rw [h]

theorem pieces_of_none {t : Text} (h : Element.find? t = none) : pieces t = [t] := by
  rw [pieces_eq, h]

theorem pieces_of_some {t : Text} {f : Text.Found Element} (h : Element.find? t = some f) :
    pieces t = Text.trimEnd f.before :: pieces (Text.trimStart f.after) := by
  rw [pieces_eq, h]

theorem removeFrom_of_some {t rest : Text} {inRun : Bool} {e : Element}
    (h : Element.padded? inRun t = some (e, rest)) (seen : Text) :
    removeFrom seen inRun t = removeFrom seen false rest := by
  rw [removeFrom]
  split
  · rename_i hp
    rw [h, Option.some.injEq, Prod.mk.injEq] at hp
    rw [hp.2]
  · rename_i hp
    rw [h] at hp
    cases hp

theorem removeFrom_cons {c : Char} {t : Text} {inRun : Bool}
    (h : Element.padded? inRun (c :: t) = none) (seen : Text) :
    removeFrom seen inRun (c :: t) = removeFrom (c :: seen) (Text.isBlank c) t := by
  rw [removeFrom]
  split
  · rename_i hp
    rw [h] at hp
    cases hp
  · rfl

theorem removeFrom_of_none {t : Text} (h : Element.find? t = none) (seen : Text) (inRun : Bool) :
    removeFrom seen inRun t = seen.reverse ++ t := by
  induction t generalizing seen inRun with
  | nil =>
      rw [removeFrom]
      split
      · rename_i hp
        rw [Element.padded?_of_find?_none h] at hp
        cases hp
      · simp
  | cons c t ih =>
      rw [removeFrom_cons (Element.padded?_of_find?_none h inRun),
        ih (Element.find?_tail_of_none h)]
      simp

/-- The walk keeps a tight text in which no element begins, and then is outside a run. -/
theorem removeFrom_append {s u : Text} (hs : Text.Silent Element.here? s u)
    (htight : Text.Tight s) (seen : Text) (inRun : Bool) (hrun : s = [] → inRun = false) :
    removeFrom seen inRun (s ++ u) = removeFrom (s.reverse ++ seen) false u := by
  induction s generalizing seen inRun with
  | nil => simp [hrun rfl]
  | cons c s ih =>
      obtain ⟨quiet, hsilent, hend, hblank⟩ := Element.walk_step hs htight inRun
      rw [List.cons_append, removeFrom_cons quiet, ih hsilent hend _ _ hblank]
      simp

theorem removeFrom_eq (seen t : Text) :
    removeFrom seen false t = seen.reverse ++ (pieces t).flatten := by
  induction t using pieces.induct generalizing seen with
  | case1 t h => simp [removeFrom_of_none h, pieces_of_none h]
  | case2 t f h ih =>
      have he := (Element.find?_eq_some_iff.mp h).2.1
      obtain ⟨blanks, ht, hblanks, hs⟩ := Element.find?_cut h
      have hfront := removeFrom_append (Text.silent_append_iff.mp hs).1
        (Text.tight_trimEnd f.before) seen false fun _ => rfl
      rw [← ht] at hfront
      rw [hfront, removeFrom_of_some (Element.padded?_blanks_append hblanks he), ih,
        pieces_of_some h]
      simp

/-- Removing keeps exactly the pieces between elements. -/
theorem remove_eq (t : Text) : remove t = (pieces t).flatten := by
  rw [remove, removeFrom_eq]
  rfl

theorem remove_of_none {t : Text} (h : Element.find? t = none) : remove t = t := by
  simp [remove_eq, pieces_of_none h]

/-! ## Embedding -/

/-- What stands in front of the place for a manifest in a document without one. -/
def front (t : Text) : Text :=
  match bodyClosing? t with
  | some f => Text.trimEnd f.before
  | none => Text.trimEnd t

/-- What stands behind the place for a manifest in a document without one. -/
def back (t : Text) : Text :=
  match bodyClosing? t with
  | some f => f.item ++ f.after
  | none => []

/-- What embedding keeps of a document in front of the element that it writes. -/
def lead (t : Text) : Text :=
  match Element.find? t with
  | some f => Text.trimEnd f.before
  | none => front t

/-- What embedding keeps of a document behind the element that it writes. -/
def rest (t : Text) : Text :=
  match Element.find? t with
  | some f => Text.trimStart f.after
  | none => back t

theorem replaceFirst_cons {c : Char} {t : Text} {inRun : Bool}
    (h : Element.padded? inRun (c :: t) = none) (replacement seen : Text) :
    replaceFirst replacement seen inRun (c :: t) =
      replaceFirst replacement (c :: seen) (Text.isBlank c) t := by
  simp [replaceFirst, h]

theorem replaceFirst_of_some {t after : Text} {inRun : Bool} {e : Element} (hne : t ≠ [])
    (h : Element.padded? inRun t = some (e, after)) (replacement seen : Text) :
    replaceFirst replacement seen inRun t = seen.reverse ++ replacement ++ after := by
  cases t with
  | nil => exact absurd rfl hne
  | cons c t => simp [replaceFirst, h]

theorem replaceFirst_append {s u : Text} (hs : Text.Silent Element.here? s u)
    (htight : Text.Tight s) (replacement seen : Text) (inRun : Bool)
    (hrun : s = [] → inRun = false) :
    replaceFirst replacement seen inRun (s ++ u) =
      replaceFirst replacement (s.reverse ++ seen) false u := by
  induction s generalizing seen inRun with
  | nil => simp [hrun rfl]
  | cons c s ih =>
      obtain ⟨quiet, hsilent, hend, hblank⟩ := Element.walk_step hs htight inRun
      rw [List.cons_append, replaceFirst_cons quiet, ih hsilent hend _ _ hblank]
      simp

/-- The first element is replaced together with the blanks around it. -/
theorem replaceFirst_eq {t : Text} {f : Text.Found Element} (h : Element.find? t = some f)
    (replacement : Text) : replaceFirst replacement [] false t =
      Text.trimEnd f.before ++ (replacement ++ Text.trimStart f.after) := by
  have he := (Element.find?_eq_some_iff.mp h).2.1
  obtain ⟨blanks, ht, hblanks, hs⟩ := Element.find?_cut h
  have hfront := replaceFirst_append (Text.silent_append_iff.mp hs).1
    (Text.tight_trimEnd f.before) replacement [] false fun _ => rfl
  rw [← ht] at hfront
  obtain ⟨tail, htail⟩ := Element.text_lt_head he
  rw [hfront, replaceFirst_of_some (by simp [htail]) (Element.padded?_blanks_append hblanks he)]
  simp

/-- Embedding puts the element between two parts of the document that it does not look at. -/
theorem embed_eq (t : Text) (payload : Bytes) :
    embed t payload = lead t ++ (tag payload ++ rest t) := by
  unfold embed hasElement lead rest
  cases h : Element.find? t with
  | some f => simp [replaceFirst_eq h]
  | none =>
      unfold front back
      cases bodyClosing? t <;> simp

theorem embed_of_none {t : Text} (h : Element.find? t = none) (payload : Bytes) :
    embed t payload = front t ++ (tag payload ++ back t) := by
  rw [embed_eq, lead, rest, h]

theorem hasElement_eq_false_iff {t : Text} : hasElement t = false ↔ Element.find? t = none := by
  simp [hasElement]

theorem reads_bodyClosingHere? : Text.Reads bodyClosingHere? (IsEndTag "</body".toList) :=
  reads_endTag? _

theorem bodyClosing?_cut {t : Text} {f : Text.Found Text} (h : bodyClosing? t = some f) :
    t = f.before ++ (f.item ++ f.after) ∧ (∃ tail, f.item = '<' :: tail) ∧
      Text.Silent bodyClosingHere? f.before (f.item ++ f.after) := by
  obtain ⟨u, ht, hu, hs⟩ := Text.findFirst_eq_some_iff.mp h
  obtain ⟨hcut, htag⟩ := (reads_bodyClosingHere? _ _ _).mp hu
  obtain ⟨tail, htail, -⟩ := htag.lt_head (w := "/body".toList) (by decide)
  rw [hcut] at ht hs
  exact ⟨ht, ⟨tail, htail⟩, hs⟩

theorem tight_front (t : Text) : Text.Tight (front t) := by
  unfold front
  cases bodyClosing? t with
  | some f => exact Text.tight_trimEnd f.before
  | none => exact Text.tight_trimEnd t

theorem lt_head_back {t : Text} : ∀ c v, back t = c :: v → c = '<' := by
  intro c v h
  unfold back at h
  cases hf : bodyClosing? t with
  | none => simp [hf] at h
  | some f =>
      obtain ⟨-, ⟨tail, htail⟩, -⟩ := bodyClosing?_cut hf
      simp only [hf, htail, List.cons_append, List.cons.injEq] at h
      exact h.1.symm

/-- Between what is kept of a document without an element there are only blanks. -/
theorem front_append_back (t : Text) : ∃ blanks, t = front t ++ (blanks ++ back t) ∧
    ∀ c ∈ blanks, Text.isBlank c = true := by
  unfold front back
  cases hf : bodyClosing? t with
  | none => simpa using Text.trimEnd_append_blanks t
  | some f =>
      obtain ⟨blanks, hcut, hblanks⟩ := Text.trimEnd_append_blanks f.before
      refine ⟨blanks, ?_, hblanks⟩
      rw [← List.append_assoc, ← hcut]
      exact (bodyClosing?_cut hf).1

theorem lead_append_rest (t : Text) : ∃ middle, t = lead t ++ (middle ++ rest t) := by
  unfold lead rest
  cases hf : Element.find? t with
  | none =>
      obtain ⟨blanks, hcut, -⟩ := front_append_back t
      exact ⟨blanks, hcut⟩
  | some f =>
      obtain ⟨blanks, ht, -, -⟩ := Element.find?_cut hf
      obtain ⟨blanks', hafter, -⟩ := Text.blanks_append_trimStart f.after
      refine ⟨blanks ++ f.item.text ++ blanks', ?_⟩
      simp only [List.append_assoc, ← hafter]
      exact ht

end Inline

end PageManifest
