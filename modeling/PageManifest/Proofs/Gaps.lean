import PageManifest.Proofs.InPlace

/-! # Removing as trimming and joining

Between the elements of a document, found one after the other without the blanks
around them, lie its gaps.  The walk that takes elements out with their blanks
leaves the same as trimming every gap at the elements next to it and joining what
is left.
-/

namespace PageManifest

open Markup

namespace Markup.Element

/-- Blanks in front of a document move none of its elements. -/
theorem find?_trimStart_of_some {t : Text} {f : Text.Found Element} (hf : find? t = some f) :
    find? (Text.trimStart t) = some ⟨Text.trimStart f.before, f.item, f.after⟩ := by
  obtain ⟨ht, he, hs⟩ := find?_eq_some_iff.mp hf
  obtain ⟨blanks, hcut, -⟩ := Text.blanks_append_trimStart f.before
  obtain ⟨tail, htail⟩ := text_lt_head he
  rw [hcut] at hs
  refine find?_eq_some_iff.mpr ⟨?_, he, (Text.silent_append_iff.mp hs).2⟩
  rw [ht, htail, List.cons_append, Text.trimStart_append_of_not_blank rfl]

theorem find?_trimStart_of_none {t : Text} (h : find? t = none) :
    find? (Text.trimStart t) = none := by
  obtain ⟨blanks, hcut, -⟩ := Text.blanks_append_trimStart t
  have hs := find?_eq_none_iff.mp h
  rw [hcut] at hs
  exact find?_eq_none_iff.mpr (Text.silent_append_iff.mp hs).2

end Markup.Element

namespace Inline

/-- The stretches of a document in front of, between and behind its elements, as they are. -/
def gaps (t : Text) : List Text :=
  match _h : Element.find? t with
  | none => [t]
  | some f => f.before :: gaps f.after
termination_by t.length
decreasing_by
  exact Text.findFirst_after_length (fun _ _ _ h => Element.here?_length h) _h

theorem gaps_eq (t : Text) : gaps t = match Element.find? t with
    | none => [t]
    | some f => f.before :: gaps f.after := by
  rw [gaps]
  split <;> rename_i h <;> rw [h]

theorem gaps_of_none {t : Text} (h : Element.find? t = none) : gaps t = [t] := by
  rw [gaps_eq, h]

theorem gaps_of_some {t : Text} {f : Text.Found Element} (h : Element.find? t = some f) :
    gaps t = f.before :: gaps f.after := by
  rw [gaps_eq, h]

/-- Gaps with the elements between them. -/
def woven : List Text → List Element → Text
  | gap :: gaps, e :: elements => gap ++ (e.text ++ woven gaps elements)
  | gaps, _ => gaps.flatten

/-- A document is its gaps and its elements in turn. -/
theorem woven_gaps (t : Text) : woven (gaps t) (Element.all t) = t := by
  induction t using gaps.induct with
  | case1 t h =>
      rw [gaps_of_none h, Element.all_of_none h, woven]
      · exact List.append_nil t
      · intro gap gaps e elements _ hnone
        cases hnone
  | case2 t f h ih =>
      rw [gaps_of_some h, Element.all_of_some h, woven, ih]
      exact (Element.find?_eq_some_iff.mp h).1.symm

theorem length_gaps (t : Text) : (gaps t).length = (Element.all t).length + 1 := by
  induction t using gaps.induct with
  | case1 t h => rw [gaps_of_none h, Element.all_of_none h, List.length_singleton, List.length_nil]
  | case2 t f h ih =>
      rw [gaps_of_some h, Element.all_of_some h, List.length_cons, List.length_cons, ih]

/-- Behind an element every gap is trimmed at its start, and at its end unless it is the last. -/
theorem exists_trimmed_behind (t : Text) : ∃ inner last, gaps t = inner ++ [last] ∧
    (pieces (Text.trimStart t)).flatten = (inner.map Text.trim).flatten ++ Text.trimStart last := by
  induction t using gaps.induct with
  | case1 t h =>
      refine ⟨[], t, gaps_of_none h, ?_⟩
      rw [pieces_of_none (Element.find?_trimStart_of_none h)]
      exact List.append_nil _
  | case2 t f h ih =>
      obtain ⟨inner, last, hgaps, hkept⟩ := ih
      refine ⟨f.before :: inner, last, ?_, ?_⟩
      · rw [gaps_of_some h, hgaps, List.cons_append]
      · rw [pieces_of_some (Element.find?_trimStart_of_some h), List.flatten_cons, hkept,
          List.map_cons, List.flatten_cons, List.append_assoc, Text.trim]

/--
Removing trims the gaps of a document at its elements and joins them.  So it
changes exactly the documents with an element, and drops nothing but elements and
the blanks next to them.
-/
theorem remove_eq_trimmed_gaps (t : Text) :
    (woven (gaps t) (Element.all t) = t ∧ (gaps t).length = (Element.all t).length + 1) ∧
    (Element.all t = [] → remove t = t) ∧
    (Element.all t ≠ [] → ∃ first inner last, gaps t = first :: (inner ++ [last]) ∧
      remove t = Text.trimEnd first ++ ((inner.map Text.trim).flatten ++ Text.trimStart last)) ∧
    (remove t ≠ t ↔ hasElement t = true) ∧
    ∃ kept, Outside (Element.all t) t kept ∧ remove t = kept.flatten := by
  refine ⟨⟨woven_gaps t, length_gaps t⟩, ?_, ?_, ?_, pieces t, outside_pieces t, remove_eq t⟩
  · intro hnone
    cases hf : Element.find? t with
    | none => exact remove_of_none hf
    | some f =>
        rw [Element.all_of_some hf] at hnone
        cases hnone
  · intro hsome
    cases hf : Element.find? t with
    | none => exact absurd (Element.all_of_none hf) hsome
    | some f =>
        obtain ⟨inner, last, hgaps, hkept⟩ := exists_trimmed_behind f.after
        refine ⟨f.before, inner, last, by rw [gaps_of_some hf, hgaps], ?_⟩
        rw [remove_eq, pieces_of_some hf, List.flatten_cons, hkept]
  · rw [ne_eq, remove_eq_self_iff, Bool.not_eq_false]

end Inline

end PageManifest
