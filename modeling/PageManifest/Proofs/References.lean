import PageManifest.Proofs.Links

/-! # All references of a document

The references of a document are its links, found one after the other without
overlap, as far as they carry the relation.  Inserting a reference changes the
first of them, or makes one where there is none, so references never pile up.
-/

namespace PageManifest

namespace Markup

/-- The links of a document, found one after the other without overlap. -/
def links (t : Text) : List Text :=
  match _h : Text.findFirst linkHere? t with
  | none => []
  | some f => f.item :: links f.after
termination_by t.length
decreasing_by
  exact Text.findFirst_after_length (fun _ _ _ hl => tagHere?_length (by decide) hl) _h

/-- The reference elements of a document, from its start to its end. -/
def references (t : Text) : List Text :=
  (links t).filter (Text.hasInfix relationAttribute)

theorem links_eq (t : Text) : links t = match Text.findFirst linkHere? t with
    | none => []
    | some f => f.item :: links f.after := by
  rw [links]
  split <;> rename_i h <;> rw [h]

theorem links_append_of_silent {s u : Text} (hs : Text.Silent linkHere? s u) :
    links (s ++ u) = links u := by
  rw [links_eq (s ++ u), links_eq u, Text.findFirst_append hs]
  cases Text.findFirst linkHere? u <;> rfl

/-- The first reference is the one that a search for references finds. -/
theorem references_eq (t : Text) : references t = match referenceIn? t with
    | none => []
    | some f => f.item :: references f.after := by
  induction t using referenceIn?.induct with
  | case1 t hnone => rw [references, links_eq, referenceIn?_eq, hnone]; rfl
  | case2 t f hf hrelation =>
      rw [references, links_eq, referenceIn?_eq, hf]
      simp only [hrelation, if_true, List.filter_cons_of_pos]
      rfl
  | case3 t f hf hrelation ih =>
      rw [references, links_eq, referenceIn?_eq, hf]
      simp only [hrelation, Bool.false_eq_true, if_false, List.filter_cons_of_neg,
        not_false_eq_true]
      change references f.after = _
      rw [ih]
      cases referenceIn? f.after <;> rfl

theorem references_of_none {t : Text} (h : referenceIn? t = none) : references t = [] := by
  rw [references_eq, h]

theorem references_of_some {t : Text} {f : Text.Found Text} (h : referenceIn? t = some f) :
    references t = f.item :: references f.after := by
  rw [references_eq, h]

/-! ## Text behind which a reference may stand -/

/-- Whatever a text ends with, there is a `>` in it: the text is empty or ends in `>`. -/
def Closed (s : Text) : Prop :=
  ∀ a b, s = a ++ b → b ≠ [] → '>' ∈ b

theorem Closed.of_append {a s : Text} (h : Closed (a ++ s)) : Closed s := by
  intro b c hbc hc
  exact h (a ++ b) c (by simp [hbc]) hc

theorem closed_concat_gt (inner : Text) : Closed (inner ++ ['>']) :=
  fun _ _ hab hb => Text.mem_of_concat_eq hab hb

/-- A link that begins in front of a `>` is settled by the text up to there. -/
theorem silent_of_noLink {s : Text} (hs : NoLink s) (hclosed : Closed s) (u : Text) :
    Text.Silent linkHere? s u := by
  intro a b hab hb
  cases hfound : linkHere? (b ++ u) with
  | none => rfl
  | some p =>
      exfalso
      have hsome : (linkHere? (b ++ u)).isSome = true := by rw [hfound]; rfl
      obtain ⟨k, y, hcut, hk, hword, -⟩ := isSome_tagHere?_iff.mp hsome
      rcases List.append_eq_append_iff.mp hcut with ⟨z, rfl, -⟩ | ⟨z, rfl, rfl⟩
      · exact gt_not_mem_linkKeyword hk (List.mem_append_left z (hclosed a b hab hb))
      · refine hs a (k ++ z) hab ⟨k, z, rfl, hk, ?_⟩
        cases z with
        | nil => rfl
        | cons c z => exact hword

/-- Text that is passed and ends in `>` has no part in a reference. -/
theorem references_append_of_passed {s : Text} (hs : Passed s) (hclosed : Closed s) (u : Text) :
    references (s ++ u) = references u := by
  induction hs with
  | rest quiet =>
      rw [references, links_append_of_silent (silent_of_noLink quiet hclosed u), references]
  | @link a x s quiet tag other passed ih =>
      have hread : linkHere? (x ++ (s ++ u)) = some (x, s ++ u) :=
        (reads_linkHere? _ _ _).mpr ⟨rfl, tag⟩
      have hfirst := Text.findFirst_append_of_silent ((silent_link_iff tag).mpr quiet) hread
      rw [references, List.append_assoc, List.append_assoc, links_eq, hfirst]
      simp only [other, Bool.false_eq_true, List.filter_cons_of_neg, not_false_eq_true]
      exact ih hclosed.of_append.of_append

/-- A character that begins no link has no part in a reference. -/
theorem references_cons {c : Char} (hc : Text.fold c ≠ '<') (t : Text) :
    references (c :: t) = references t := by
  have hquiet : linkHere? (c :: t) = none := by
    have hkey : Text.afterKeyword "<link".toList (c :: t) = none := if_neg hc
    rw [linkHere?, tagHere?, hkey]
  have hsilent : Text.Silent linkHere? [c] t :=
    Text.silent_cons_iff.mpr ⟨hquiet, Text.silent_nil linkHere? t⟩
  rw [references, ← List.singleton_append, links_append_of_silent hsilent, references]

end Markup

namespace Sidecar

open Markup

theorem references_newline_append (s t : Text) :
    references (newline s ++ t) = references t := by
  have hreturn : Text.fold '\r' ≠ '<' := by decide +kernel
  have hfeed : Text.fold '\n' ≠ '<' := by decide +kernel
  unfold newline
  split
  · exact (references_cons hreturn _).trans (references_cons hfeed t)
  · split
    · exact references_cons hreturn t
    · exact references_cons hfeed t

/-- Behind the place of the reference stand all references but the first. -/
theorem references_back (t : Text) : references (back t) = (references t).tail := by
  unfold back
  cases hfound : referenceIn? t with
  | some f => rw [references_of_some hfound, List.tail_cons]
  | none =>
      rw [references_of_none hfound, List.tail_nil, ← references_of_none hfound]
      cases hhead : headOpening? t with
      | none => exact references_newline_append t t
      | some head =>
          obtain ⟨hpassed, inner, hend⟩ := passed_head hfound hhead
          have hclosed : Closed (head.before ++ head.item) := hend ▸ closed_concat_gt inner
          have hrest := references_append_of_passed hpassed hclosed head.after
          rw [List.append_assoc, ← (headOpening?_cut hhead).1] at hrest
          exact hrest.symm

theorem references_insertReference (t target : Text) :
    references (insertReference t target) = referenceTag target :: (references t).tail := by
  rw [references_of_some (referenceIn?_insertReference t target), references_back]

/--
Of the references of a document only the first changes when one is inserted, and
one is made where there is none: the target that was inserted last is all that is
left of the targets before it.
-/
theorem references_replaced (t first second : Text) :
    insertReference (insertReference t first) second = insertReference t second ∧
    (references (insertReference t first)).length = max 1 (references t).length ∧
    references (insertReference t first) = referenceTag first :: (references t).tail := by
  refine ⟨insertReference_insertReference t first second, ?_, references_insertReference t first⟩
  rw [references_insertReference, List.length_cons, List.length_tail]
  omega

end Sidecar

end PageManifest
