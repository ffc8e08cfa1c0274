import PageManifest.Proofs.Attributes
import PageManifest.Proofs.Tags
import PageManifest.Sidecar.Reference

/-! # The reference that is inserted is the one that is found

Links are taken one after the other, so a text is passed if it falls into links
without the relation and stretches in which no link begins.  What is passed does
not depend on the markup that follows, and a reference is inserted behind text
that is passed.  So it is found again where it was put, and replaced there.
-/

namespace PageManifest

namespace Text

theorem isSome_splitAtChar_iff {sep : Char} {t : Text} :
    (splitAtChar sep t).isSome = true ↔ sep ∈ t := by
  constructor
  · intro h
    obtain ⟨p, hp⟩ := Option.isSome_iff_exists.mp h
    rw [splitAtChar_eq_some hp]
    simp
  · intro h
    unfold splitAtChar
    split
    · rename_i hnone
      have hcut := List.takeWhile_append_dropWhile (p := fun c => decide (c ≠ sep)) (l := t)
      rw [hnone, List.append_nil] at hcut
      rw [← hcut] at h
      have kept := List.all_eq_true.mp List.all_takeWhile sep h
      simp at kept
    · rfl

/-- Whether a word ends is seen at the next character, unless the text is over. -/
theorem endsWord_append_lt (y v : Text) : endsWord (y ++ '<' :: v) = endsWord y := by
  cases y <;> rfl

end Text

namespace Markup

/-! ## Tags -/

/-- Tags: a spelling of the keyword, attributes, and the first `>`. -/
def IsTag (keyword tag : Text) : Prop :=
  ∃ k attributes, tag = k ++ attributes ++ ['>'] ∧ k.map Text.fold = keyword ∧
    Text.endsWord attributes = true ∧ '>' ∉ attributes

theorem reads_tagHere? (keyword : Text) : Text.Reads (tagHere? keyword) (IsTag keyword) := by
  intro t tag rest
  constructor
  · intro h
    unfold tagHere? at h
    split at h
    · cases h
    · rename_i r hr
      obtain ⟨k, rfl, hk⟩ := Text.afterKeyword_eq_some_iff.mp hr
      split at h
      · rename_i hword
        obtain ⟨⟨attributes, r'⟩, hs, he⟩ := Option.map_eq_some_iff.mp h
        obtain ⟨rfl, hgt⟩ := Text.splitAtChar_eq_some_iff.mp hs
        simp only [Prod.mk.injEq] at he
        obtain ⟨htag, rfl⟩ := he
        have hcut : k ++ (attributes ++ '>' :: r') = k ++ attributes ++ ['>'] ++ r' := by
          simp
        rw [hcut, List.length_append, Nat.add_sub_cancel, List.take_left] at htag
        rw [endsWord_append_gt] at hword
        exact ⟨by rw [← htag, hcut], k, attributes, htag.symm, hk, hword, hgt⟩
      · cases h
  · rintro ⟨rfl, k, attributes, rfl, hk, hword, hgt⟩
    have hcut : k ++ attributes ++ ['>'] ++ rest = k ++ (attributes ++ '>' :: rest) := by
      simp
    have hafter := Text.afterKeyword_append hk (attributes ++ '>' :: rest)
    have hsplit : Text.splitAtChar '>' (attributes ++ '>' :: rest) = some (attributes, rest) :=
      Text.splitAtChar_eq_some_iff.mpr ⟨rfl, hgt⟩
    rw [hcut, tagHere?]
    simp only [hafter, endsWord_append_gt, hword, hsplit, if_true, Option.map_some]
    rw [← hcut, List.length_append, Nat.add_sub_cancel, List.take_left]

theorem isSome_tagHere?_iff {keyword t : Text} : (tagHere? keyword t).isSome = true ↔
    ∃ k y, t = k ++ y ∧ k.map Text.fold = keyword ∧ Text.endsWord y = true ∧ '>' ∈ y := by
  unfold tagHere?
  constructor
  · intro h
    split at h
    · cases h
    · rename_i y hy
      obtain ⟨k, rfl, hk⟩ := Text.afterKeyword_eq_some_iff.mp hy
      split at h
      · rename_i hword
        rw [Option.isSome_map, Text.isSome_splitAtChar_iff] at h
        exact ⟨k, y, rfl, hk, hword, h⟩
      · cases h
  · rintro ⟨k, y, rfl, hk, hword, hgt⟩
    simp only [Text.afterKeyword_append hk, hword, if_true, Option.isSome_map,
      Text.isSome_splitAtChar_iff]
    exact hgt

/-! ## Text that is passed -/

def linkKeyword : Text :=
  "<link".toList

/-- Whether a `link` tag begins at the start of a text, be it complete or not. -/
def LinkBegins (t : Text) : Prop :=
  ∃ k y, t = k ++ y ∧ k.map Text.fold = linkKeyword ∧ Text.endsWord y = true

/-- No `link` tag begins inside a text. -/
def NoLink (s : Text) : Prop :=
  ∀ a b, s = a ++ b → ¬ LinkBegins b

/-- Text that the walk over links passes without a reference, up to its very end. -/
inductive Passed : Text → Prop
  | rest {s : Text} (quiet : NoLink s) : Passed s
  | link {a x s : Text} (quiet : NoLink a) (tag : IsTag linkKeyword x)
      (other : Text.hasInfix relationAttribute x = false) (passed : Passed s) :
      Passed (a ++ (x ++ s))

theorem reads_linkHere? : Text.Reads linkHere? (IsTag linkKeyword) :=
  reads_tagHere? _

theorem spelled_link {k : Text} (h : k.map Text.fold = linkKeyword) :
    ∃ tail, k = '<' :: tail ∧ '<' ∉ tail :=
  Text.spelled_lt (w := "link".toList) h (by decide)

theorem gt_not_mem_linkKeyword {k : Text} (h : k.map Text.fold = linkKeyword) : '>' ∉ k := by
  intro hmem
  have hgt := Text.gt_mem_map_fold hmem
  rw [h] at hgt
  revert hgt
  decide

theorem IsTag.link_lt_head {x : Text} (h : IsTag linkKeyword x) : ∃ tail, x = '<' :: tail := by
  obtain ⟨k, attributes, rfl, hk, -, -⟩ := h
  obtain ⟨tail, rfl, -⟩ := spelled_link hk
  exact ⟨tail ++ attributes ++ ['>'], rfl⟩

theorem IsTag.gt_mem {keyword x : Text} (h : IsTag keyword x) : '>' ∈ x := by
  obtain ⟨k, attributes, rfl, -⟩ := h
  simp

/-- The first `>` of a link is its end. -/
theorem IsTag.link_gt_last {x : Text} (h : IsTag linkKeyword x) :
    ∃ inner, x = inner ++ ['>'] ∧ '>' ∉ inner := by
  obtain ⟨k, attributes, rfl, hk, -, hgt⟩ := h
  refine ⟨k ++ attributes, rfl, ?_⟩
  rw [List.mem_append]
  rintro (hmem | hmem)
  · exact gt_not_mem_linkKeyword hk hmem
  · exact hgt hmem

/-- Where a link begins is settled by the text in front of further markup. -/
theorem isSome_linkHere?_append_iff {b v : Text} (hb : b ≠ []) (hv : '>' ∈ v) :
    (linkHere? (b ++ '<' :: v)).isSome = true ↔ LinkBegins b := by
  rw [linkHere?, isSome_tagHere?_iff]
  constructor
  · rintro ⟨k, y, hcut, hk, hword, -⟩
    rcases List.append_eq_append_iff.mp hcut with ⟨z, rfl, hz⟩ | ⟨z, rfl, rfl⟩
    · obtain ⟨tail, htail, hlt⟩ := spelled_link hk
      cases z with
      | nil => exact ⟨b ++ [], [], by simp, hk, rfl⟩
      | cons c z =>
          -- The keyword would go on with a second `<`.
          cases b with
          | nil => exact absurd rfl hb
          | cons d b =>
              rw [List.cons_append, List.cons.injEq] at htail hz
              exact absurd (by simp [← htail.2, ← hz.1]) hlt
    · rw [Text.endsWord_append_lt] at hword
      exact ⟨k, z, rfl, hk, hword⟩
  · rintro ⟨k, y, rfl, hk, hword⟩
    refine ⟨k, y ++ '<' :: v, by simp, hk, ?_, by simp [hv]⟩
    rw [Text.endsWord_append_lt]
    exact hword

theorem LinkBegins.ne_nil {b : Text} (h : LinkBegins b) : b ≠ [] := by
  obtain ⟨k, y, rfl, hk, -⟩ := h
  obtain ⟨tail, rfl, -⟩ := spelled_link hk
  simp

/-- No link is recognised in front of further markup exactly if none begins there. -/
theorem silent_linkHere?_iff {s v : Text} (hv : '>' ∈ v) :
    Text.Silent linkHere? s ('<' :: v) ↔ NoLink s := by
  constructor
  · intro h a b hab hlink
    have found := (isSome_linkHere?_append_iff hlink.ne_nil hv).mpr hlink
    rw [h a b hab hlink.ne_nil] at found
    cases found
  · intro h a b hab hb
    cases hfound : linkHere? (b ++ '<' :: v) with
    | none => rfl
    | some p =>
        have hsome : (linkHere? (b ++ '<' :: v)).isSome = true := by rw [hfound]; rfl
        exact absurd ((isSome_linkHere?_append_iff hb hv).mp hsome) (h a b hab)

theorem silent_link_iff {s x u : Text} (hx : IsTag linkKeyword x) :
    Text.Silent linkHere? s (x ++ u) ↔ NoLink s := by
  obtain ⟨tail, rfl⟩ := hx.link_lt_head
  have hgt : '>' ∈ tail := by simpa using hx.gt_mem
  exact silent_linkHere?_iff (by simp [hgt])

/-! ## The walk over links -/

theorem referenceIn?_eq (t : Text) : referenceIn? t = match Text.findFirst linkHere? t with
    | none => none
    | some f =>
        if Text.hasInfix relationAttribute f.item then some f
        else
          (referenceIn? f.after).map fun g =>
            ⟨f.before ++ f.item ++ g.before, g.item, g.after⟩ := by
  rw [referenceIn?]
  split <;> rename_i h <;> rw [h]

theorem referenceIn?_append_of_passed {s x : Text} (hs : Passed s) (hx : IsTag linkKeyword x)
    (hrelation : Text.hasInfix relationAttribute x = true) (u : Text) :
    referenceIn? (s ++ (x ++ u)) = some ⟨s, x, u⟩ := by
  have hread : ∀ {y v}, IsTag linkKeyword y → linkHere? (y ++ v) = some (y, v) :=
    fun hy => (reads_linkHere? _ _ _).mpr ⟨rfl, hy⟩
  induction hs with
  | rest quiet =>
      have hfirst := Text.findFirst_append_of_silent ((silent_link_iff hx).mpr quiet)
        (hread (v := u) hx)
      rw [referenceIn?_eq, hfirst]
      simp only [hrelation, if_true]
  | @link a y s quiet tag other passed ih =>
      have hfirst := Text.findFirst_append_of_silent ((silent_link_iff tag).mpr quiet)
        (hread (v := s ++ (x ++ u)) tag)
      have hcut : a ++ (y ++ s) ++ (x ++ u) = a ++ (y ++ (s ++ (x ++ u))) := by
        simp only [List.append_assoc]
      rw [hcut, referenceIn?_eq, hfirst]
      simp only [other, Bool.false_eq_true, if_false, ih, Option.map_some, List.append_assoc]

theorem noLink_of_silent {s t u : Text} (hs : Text.Silent linkHere? (s ++ t) u)
    (hend : ∃ inner, s = inner ++ ['>']) : NoLink s := by
  intro a b hab hlink
  obtain ⟨inner, hinner⟩ := hend
  obtain ⟨k, y, rfl, hk, hword⟩ := hlink
  have hne := LinkBegins.ne_nil ⟨k, y, rfl, hk, hword⟩
  -- The link that begins in front of the last character ends there at the latest.
  have hgt : '>' ∈ y := by
    have hmem : '>' ∈ k ++ y := Text.mem_of_concat_eq (hinner.symm.trans hab) hne
    exact (List.mem_append.mp hmem).resolve_left (gt_not_mem_linkKeyword hk)
  have hfound : (linkHere? (k ++ y ++ (t ++ u))).isSome = true := by
    refine isSome_tagHere?_iff.mpr ⟨k, y ++ (t ++ u), by simp, hk, ?_, by simp [hgt]⟩
    cases y with
    | nil => cases hgt
    | cons c y => exact hword
  have hquiet := hs a (k ++ y ++ t) (by rw [hab, List.append_assoc])
    (List.append_ne_nil_of_left_ne_nil hne t)
  rw [← List.append_assoc, hquiet] at hfound
  cases hfound

/-- What stands in front of the first reference is passed. -/
theorem passed_of_referenceIn? {t : Text} {f : Text.Found Text} (h : referenceIn? t = some f) :
    Passed f.before ∧ t = f.before ++ (f.item ++ f.after) := by
  induction t using referenceIn?.induct generalizing f with
  | case1 t hnone =>
      rw [referenceIn?_eq, hnone] at h
      cases h
  | case2 t g hg hrelation =>
      obtain ⟨u, ht, hu, hs⟩ := Text.findFirst_eq_some_iff.mp hg
      obtain ⟨rfl, htag⟩ := (reads_linkHere? _ _ _).mp hu
      rw [referenceIn?_eq, hg] at h
      simp only [hrelation, if_true, Option.some.injEq] at h
      rw [← h]
      exact ⟨.rest ((silent_link_iff htag).mp hs), ht⟩
  | case3 t g hg hrelation ih =>
      obtain ⟨u, ht, hu, hs⟩ := Text.findFirst_eq_some_iff.mp hg
      obtain ⟨rfl, htag⟩ := (reads_linkHere? _ _ _).mp hu
      rw [referenceIn?_eq, hg] at h
      simp only [hrelation] at h
      obtain ⟨e, he, rfl⟩ := Option.map_eq_some_iff.mp h
      obtain ⟨hpassed, hafter⟩ := ih he
      have hother : Text.hasInfix relationAttribute g.item = false := by simpa using hrelation
      constructor
      · rw [List.append_assoc]
        exact .link ((silent_link_iff htag).mp hs) htag hother hpassed
      · simp only [List.append_assoc]
        rw [← hafter]
        exact ht

theorem noLink_nil : NoLink [] := by
  intro a b hab hlink
  exact hlink.ne_nil (List.append_eq_nil_iff.mp hab.symm).2

/-- Behind a link, the part of a text that ends in `>` ends with the link or goes on behind it. -/
theorem cut_behind_link {x after y u : Text} (hx : IsTag linkKeyword x)
    (h : y ++ ['>'] ++ u = x ++ after) :
    y ++ ['>'] = x ∨ ∃ z, y = x ++ z ∧ after = z ++ ['>'] ++ u := by
  obtain ⟨inner, rfl, hgt⟩ := hx.link_gt_last
  have hcut : y ++ ('>' :: u) = inner ++ ('>' :: after) := by simpa using h
  rcases List.append_eq_append_iff.mp hcut with ⟨z, rfl, hz⟩ | ⟨z, rfl, hz⟩
  · cases z with
    | nil => exact .inl (by simp)
    | cons c z =>
        rw [List.cons_append, List.cons.injEq] at hz
        exact absurd (by simp [← hz.1]) hgt
  · cases z with
    | nil => exact .inl (by simp)
    | cons c z =>
        rw [List.cons_append, List.cons.injEq] at hz
        exact .inr ⟨z, by simp [← hz.1], by simp [hz.2]⟩

/-- In a document without a reference, whatever ends in `>` is passed. -/
theorem passed_of_none {t inner u : Text} (h : referenceIn? t = none)
    (ht : t = inner ++ ['>'] ++ u) : Passed (inner ++ ['>']) := by
  induction t using referenceIn?.induct generalizing inner u with
  | case1 t hnone =>
      have hs := (Text.findFirst_eq_none_iff.mp hnone).1
      rw [ht] at hs
      exact .rest (noLink_of_silent hs ⟨inner, rfl⟩)
  | case2 t g hg hrelation =>
      rw [referenceIn?_eq, hg] at h
      simp [hrelation] at h
  | case3 t g hg hrelation ih =>
      obtain ⟨v, hcut, hv, hs⟩ := Text.findFirst_eq_some_iff.mp hg
      obtain ⟨rfl, htag⟩ := (reads_linkHere? _ _ _).mp hv
      have hquiet := (silent_link_iff htag).mp hs
      have hother : Text.hasInfix relationAttribute g.item = false := by simpa using hrelation
      rw [referenceIn?_eq, hg] at h
      simp only [hrelation, Bool.false_eq_true, if_false, Option.map_eq_none_iff] at h
      rw [ht] at hcut
      rcases List.append_eq_append_iff.mp hcut with ⟨w, hw, -⟩ | ⟨w, hw, hrest⟩
      · rw [hw] at hs
        exact .rest (noLink_of_silent hs ⟨inner, rfl⟩)
      · rcases List.eq_nil_or_concat w with rfl | ⟨y, c, rfl⟩
        · rw [hw, List.append_nil]
          exact .rest hquiet
        · rw [List.concat_eq_append] at hw hrest
          have hlast : inner ++ ['>'] = (g.before ++ y) ++ [c] := by simpa using hw
          obtain ⟨-, hc⟩ := List.append_inj' hlast rfl
          rw [← hc] at hw hrest
          rw [hw]
          rcases cut_behind_link htag hrest.symm with hlink | ⟨z, rfl, hafter⟩
          · rw [hlink]
            have hpassed := Passed.link hquiet htag hother (.rest noLink_nil)
            rwa [List.append_nil] at hpassed
          · rw [List.append_assoc]
            exact .link hquiet htag hother (ih h hafter)

/-- A character that is no part of the keyword does not complete a link. -/
theorem NoLink.concat {s : Text} {c : Char} (h : NoLink s) (hc : Text.fold c ∉ linkKeyword) :
    NoLink (s ++ [c]) := by
  rintro a b hab ⟨k, y, rfl, hk, hword⟩
  rcases List.eq_nil_or_concat y with rfl | ⟨y, d, rfl⟩
  · obtain ⟨tail, htail, -⟩ := spelled_link hk
    rw [List.append_nil] at hab
    have hlast : c ∈ k := Text.mem_of_concat_eq hab (by simp [htail])
    have hmem := List.mem_map_of_mem (f := Text.fold) hlast
    rw [hk] at hmem
    exact hc hmem
  · rw [List.concat_eq_append, ← List.append_assoc, ← List.append_assoc] at hab
    obtain ⟨hs, -⟩ := List.append_inj' hab rfl
    refine h a (k ++ y) (by rw [hs, List.append_assoc]) ⟨k, y, rfl, hk, ?_⟩
    cases y with
    | nil => rfl
    | cons e y => exact hword

theorem Passed.concat {s : Text} {c : Char} (h : Passed s) (hc : Text.fold c ∉ linkKeyword) :
    Passed (s ++ [c]) := by
  induction h with
  | rest quiet => exact .rest (quiet.concat hc)
  | link quiet tag other _ ih =>
      rw [List.append_assoc, List.append_assoc]
      exact .link quiet tag other ih

/-- The text up to an opening tag of the head, and what stands behind it. -/
theorem headOpening?_cut {t : Text} {head : Text.Found Text} (h : headOpening? t = some head) :
    t = head.before ++ (head.item ++ head.after) ∧
      ∃ inner, head.before ++ head.item = inner ++ ['>'] := by
  obtain ⟨u, ht, hu, -⟩ := Text.findFirst_eq_some_iff.mp h
  obtain ⟨rfl, k, attributes, hitem, -⟩ := (reads_tagHere? _ _ _ _).mp hu
  exact ⟨ht, head.before ++ (k ++ attributes), by simp [hitem]⟩

/-- The opening tag of a head ends in `>`, so no link reaches beyond it. -/
theorem passed_head {t : Text} {head : Text.Found Text} (hnone : referenceIn? t = none)
    (hhead : headOpening? t = some head) :
    Passed (head.before ++ head.item) ∧ ∃ inner, head.before ++ head.item = inner ++ ['>'] := by
  obtain ⟨ht, inner, hcut⟩ := headOpening?_cut hhead
  rw [← List.append_assoc, hcut] at ht
  rw [hcut]
  exact ⟨passed_of_none hnone ht, inner, rfl⟩

end Markup

namespace Sidecar

open Markup

/-! ## Inserting -/

/-- What stands in front of the reference that is inserted. -/
def front (t : Text) : Text :=
  match referenceIn? t with
  | some found => found.before
  | none =>
      match headOpening? t with
      | some head => head.before ++ head.item ++ newline t
      | none => []

/-- What stands behind the reference that is inserted. -/
def back (t : Text) : Text :=
  match referenceIn? t with
  | some found => found.after
  | none =>
      match headOpening? t with
      | some head => head.after
      | none => newline t ++ t

/-- Inserting puts the reference between two parts that do not depend on its target. -/
theorem insertReference_eq (t target : Text) :
    insertReference t target = front t ++ (referenceTag target ++ back t) := by
  unfold insertReference front back
  cases referenceIn? t with
  | some found => simp
  | none => cases headOpening? t <;> simp

theorem passed_append_newline {s : Text} (h : Passed s) (t : Text) : Passed (s ++ newline t) := by
  unfold newline
  split
  · have hfirst := h.concat (c := '\r') (by decide +kernel)
    have hboth := hfirst.concat (c := '\n') (by decide +kernel)
    rw [List.append_assoc] at hboth
    exact hboth
  · split
    · exact h.concat (by decide +kernel)
    · exact h.concat (by decide +kernel)

theorem passed_front (t : Text) : Passed (front t) := by
  unfold front
  cases hfound : referenceIn? t with
  | some found => exact (passed_of_referenceIn? hfound).1
  | none =>
      cases hhead : headOpening? t with
      | none => exact .rest noLink_nil
      | some head => exact passed_append_newline (passed_head hfound hhead).1 t

theorem isTag_referenceTag (target : Text) : IsTag linkKeyword (referenceTag target) := by
  refine ⟨linkKeyword, " ".toList ++ relationAttribute ++ " href=\"".toList ++ escape target ++
    ['"'], ?_, by decide +kernel, rfl, ?_⟩
  · unfold referenceTag linkKeyword
    simp
  · have hfree : '>' ∉ " ".toList ++ relationAttribute ++ " href=\"".toList := by decide +kernel
    have hescaped : '>' ∉ escape target := not_mem_escape target (by decide)
    rw [List.mem_append, List.mem_append, not_or, not_or]
    exact ⟨⟨hfree, hescaped⟩, by decide⟩

theorem hasInfix_referenceTag (target : Text) :
    Text.hasInfix relationAttribute (referenceTag target) = true := by
  rw [Text.hasInfix_iff]
  refine ⟨"<link ".toList, " href=\"".toList ++ escape target ++ "\">".toList, ?_⟩
  unfold referenceTag
  simp only [List.append_assoc]

theorem referenceIn?_insertReference (t target : Text) :
    referenceIn? (insertReference t target) =
      some ⟨front t, referenceTag target, back t⟩ := by
  rw [insertReference_eq]
  exact referenceIn?_append_of_passed (passed_front t) (isTag_referenceTag target)
    (hasInfix_referenceTag target) (back t)

theorem front_insertReference (t target : Text) : front (insertReference t target) = front t := by
  rw [front, referenceIn?_insertReference]

theorem insertReference_insertReference (t first second : Text) :
    insertReference (insertReference t first) second = insertReference t second := by
  have hback : back (insertReference t first) = back t := by
    rw [back, referenceIn?_insertReference]
  rw [insertReference_eq (insertReference t first), front_insertReference, hback,
    ← insertReference_eq]

theorem insertReference_ne_nil (t target : Text) : insertReference t target ≠ [] := by
  obtain ⟨tail, htail⟩ := (isTag_referenceTag target).link_lt_head
  rw [insertReference_eq, htail]
  simp

end Sidecar

end PageManifest
