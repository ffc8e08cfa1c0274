import PageManifest.Markup.Element
import PageManifest.Markup.Landmark
import PageManifest.Proofs.Search
import PageManifest.Proofs.Words

/-! # The grammar of tags

An opening tag of a manifest element and a closing tag are each recognised by
their own characters: the readers take off exactly the texts of a grammar.  What
a cut through a text can do to a tag follows from the grammar, since `<` stands
only at the start of a keyword and `>` only at the end of a tag.
-/

namespace PageManifest

namespace Text

/-- Beyond ASCII a character is compared as itself, or it is a spelling of a letter. -/
theorem fold_wide {c : Char} (hc : ¬ c.toNat < 0x80) : fold c = c ∨ fold c ∈ ['i', 's', 'k'] := by
  rw [fold, if_neg (by omega)]
  split
  · right; decide
  · split
    · right; decide
    · split
      · right; decide
      · left; rfl

/-- What is compared as a letter with no spelling beyond ASCII is part of a word. -/
theorem isWord_of_fold {c : Char} (h : isWord (fold c) = true) (hc : fold c ∉ ['i', 's', 'k']) :
    isWord c = true := by
  by_cases hascii : c.toNat < 0x80
  · have here : isWord (fold c) = true → isWord c = true :=
      of_ascii (P := fun d => isWord (fold d) = true → isWord d = true) (by decide +kernel) hascii
    exact here h
  · rcases fold_wide hascii with hsame | hletter
    · rwa [hsame] at h
    · exact absurd hletter hc

theorem eq_lt_of_fold {c : Char} (h : fold c = '<') : c = '<' := by
  by_cases hc : c.toNat < 0x80
  · have here : fold c = '<' → c = '<' :=
      of_ascii (P := fun d => fold d = '<' → d = '<') (by decide +kernel) hc
    exact here h
  · rcases fold_wide hc with hsame | hletter
    · rw [← hsame, h]
    · rw [h] at hletter
      exact absurd hletter (by decide)

theorem lt_mem_map_fold {s : Text} (h : '<' ∈ s) : '<' ∈ s.map fold :=
  List.mem_map.mpr ⟨'<', h, rfl⟩

theorem gt_mem_map_fold {s : Text} (h : '>' ∈ s) : '>' ∈ s.map fold :=
  List.mem_map.mpr ⟨'>', h, rfl⟩

theorem not_mem_of_all_blank {s : Text} (h : ∀ c ∈ s, isBlank c = true) {c : Char}
    (hc : isBlank c = false) : c ∉ s := by
  intro hmem
  rw [h c hmem] at hc
  cases hc

/-- A keyword that starts with `<` is spelled with it, and with it only there. -/
theorem spelled_lt {k w : Text} (h : k.map fold = '<' :: w) (hw : '<' ∉ w) :
    ∃ tail, k = '<' :: tail ∧ '<' ∉ tail := by
  cases k with
  | nil => cases h
  | cons c tail =>
      simp only [List.map_cons, List.cons.injEq] at h
      refine ⟨tail, by rw [eq_lt_of_fold h.1], ?_⟩
      intro hmem
      exact hw (h.2 ▸ lt_mem_map_fold hmem)

end Text

namespace Markup

/-! ## Closing tags -/

/-- A closing tag of the given keyword at the start of a text, and the rest. -/
def endTag? (keyword t : Text) : Option (Text × Text) :=
  match Text.afterKeyword keyword t with
  | none => none
  | some rest =>
      match rest.dropWhile Text.isBlank with
      | '>' :: rest => some (t.take (t.length - rest.length), rest)
      | _ => none

/-- Closing tags: a spelling of the keyword, blanks, and `>`. -/
def IsEndTag (keyword tag : Text) : Prop :=
  ∃ k blanks, tag = k ++ blanks ++ ['>'] ∧ k.map Text.fold = keyword ∧
    ∀ c ∈ blanks, Text.isBlank c = true

theorem reads_endTag? (keyword : Text) :
    Text.Reads (endTag? keyword) (IsEndTag keyword) := by
  intro t tag rest
  constructor
  · intro h
    unfold endTag? at h
    split at h
    · cases h
    · rename_i r hr
      obtain ⟨k, rfl, hk⟩ := Text.afterKeyword_eq_some_iff.mp hr
      split at h
      · rename_i r' hd
        simp only [Option.some.injEq, Prod.mk.injEq] at h
        have hcut := List.takeWhile_append_dropWhile (p := Text.isBlank) (l := r)
        rw [hd, h.2] at hcut
        have htag : k ++ r = k ++ r.takeWhile Text.isBlank ++ ['>'] ++ rest := by
          simp [hcut]
        have hlen : (k ++ r).length - rest.length =
            (k ++ r.takeWhile Text.isBlank ++ ['>']).length := by
          rw [htag, List.length_append]
          omega
        rw [h.2, hlen, htag, List.take_left] at h
        rw [← h.1]
        exact ⟨htag, k, r.takeWhile Text.isBlank, rfl, hk,
          List.all_eq_true.mp List.all_takeWhile⟩
      · cases h
  · rintro ⟨rfl, k, blanks, rfl, hk, hblank⟩
    have hdrop : (blanks ++ ['>'] ++ rest).dropWhile Text.isBlank = '>' :: rest := by
      rw [List.append_assoc, List.dropWhile_append_of_pos hblank]
      rfl
    have hafter : Text.afterKeyword keyword (k ++ blanks ++ ['>'] ++ rest) =
        some (blanks ++ ['>'] ++ rest) := by
      rw [List.append_assoc, List.append_assoc, ← List.append_assoc blanks]
      exact Text.afterKeyword_append hk _
    simp only [endTag?, hafter, hdrop, List.length_append, Nat.add_sub_cancel]
    rw [← List.length_append, ← List.length_append, List.take_left]

theorem IsEndTag.lt_head {w tag : Text} (hw : '<' ∉ w) (h : IsEndTag ('<' :: w) tag) :
    ∃ tail, tag = '<' :: tail ∧ '<' ∉ tail := by
  obtain ⟨k, blanks, rfl, hk, hblank⟩ := h
  obtain ⟨tail, rfl, htail⟩ := Text.spelled_lt hk hw
  have hblanks : '<' ∉ blanks := Text.not_mem_of_all_blank hblank rfl
  exact ⟨tail ++ blanks ++ ['>'], rfl, by simp [htail, hblanks]⟩

/-- A closing tag that begins in front of a `<` ends in front of it. -/
theorem endTag?_append_lt {w b u tag rest : Text} (hw : '<' ∉ w) (hb : b ≠ [])
    (h : endTag? ('<' :: w) (b ++ '<' :: u) = some (tag, rest)) :
    ∃ y, b = tag ++ y ∧ rest = y ++ '<' :: u := by
  obtain ⟨hcut, htag⟩ := (reads_endTag? _ _ _ _).mp h
  rcases List.append_eq_append_iff.mp hcut with ⟨x, hx, hrest⟩ | ⟨y, hy, hrest⟩
  · obtain ⟨tail, ht, htail⟩ := htag.lt_head hw
    cases x with
    | nil => exact ⟨[], by simp [hx], by simpa using hrest.symm⟩
    | cons c x =>
        cases b with
        | nil => exact absurd rfl hb
        | cons d b =>
            rw [hx, List.cons_append, List.cons.injEq] at ht
            simp only [List.cons_append, List.cons.injEq] at hrest
            exact absurd (ht.2 ▸ by simp [← hrest.1]) htail
  · exact ⟨y, hy, hrest⟩

/-- Where no closing tag begins in `s`, whatever follows, none lies inside `s`. -/
theorem findFirst_eq_none_of_silent {w s u : Text} (hw : '<' ∉ w)
    (hs : Text.Silent (endTag? ('<' :: w)) s u) :
    Text.findFirst (endTag? ('<' :: w)) s = none := by
  cases h : Text.findFirst (endTag? ('<' :: w)) s with
  | none => rfl
  | some f =>
      obtain ⟨v, hv, hf, -⟩ := Text.findFirst_eq_some_iff.mp h
      obtain ⟨rfl, htag⟩ := (reads_endTag? _ _ _ _).mp hf
      obtain ⟨tail, htail, -⟩ := htag.lt_head hw
      have quiet := hs f.before (f.item ++ f.after) hv (by simp [htail])
      have found := (reads_endTag? _ (f.item ++ f.after ++ u) f.item (f.after ++ u)).mpr
        ⟨by simp, htag⟩
      rw [quiet] at found
      cases found

/-- Where no closing tag lies inside `s`, none begins in `s` when markup follows. -/
theorem silent_endTag? {w s u : Text} (hw : '<' ∉ w)
    (hs : Text.findFirst (endTag? ('<' :: w)) s = none) :
    Text.Silent (endTag? ('<' :: w)) s ('<' :: u) := by
  intro a b hab hb
  cases h : endTag? ('<' :: w) (b ++ '<' :: u) with
  | none => rfl
  | some p =>
      obtain ⟨y, hy, -⟩ := endTag?_append_lt hw hb h
      have inside : (Text.findFirst (endTag? ('<' :: w)) s).isSome = true :=
        (reads_endTag? _).isSome_findFirst_iff.mpr
          ⟨a, p.1, y, by rw [hab, hy], ((reads_endTag? _ _ _ _).mp h).2⟩
      rw [hs] at inside
      cases inside

/-! ## Opening tags of manifest elements -/

def scriptKeyword : Text :=
  "<script".toList

/-- A `script` tag with its attributes, as yet without its end. -/
def IsUnclosed (t : Text) : Prop :=
  ∃ k attributes, t = k ++ attributes ∧ k.map Text.fold = scriptKeyword ∧
    Text.endsWord attributes = true ∧ '>' ∉ attributes

/-- Opening tags of manifest elements. -/
def IsOpening (tag : Text) : Prop :=
  ∃ k attributes, tag = k ++ attributes ++ ['>'] ∧ k.map Text.fold = scriptKeyword ∧
    Text.endsWord attributes = true ∧ '>' ∉ attributes ∧ Element.hasType true attributes = true

theorem endsWord_append_gt (attributes rest : Text) :
    Text.endsWord (attributes ++ '>' :: rest) = Text.endsWord attributes := by
  cases attributes <;> rfl

theorem reads_opening? : Text.Reads Element.opening? IsOpening := by
  intro t tag rest
  constructor
  · intro h
    unfold Element.opening? at h
    split at h
    · cases h
    · rename_i r hr
      obtain ⟨k, rfl, hk⟩ := Text.afterKeyword_eq_some_iff.mp hr
      split at h
      · rename_i hword
        split at h
        · cases h
        · rename_i attributes r' hs
          obtain ⟨rfl, hgt⟩ := Text.splitAtChar_eq_some_iff.mp hs
          split at h
          · rename_i htype
            simp only [Option.some.injEq, Prod.mk.injEq] at h
            obtain ⟨htag, rfl⟩ := h
            have hcut : k ++ (attributes ++ '>' :: r') = k ++ attributes ++ ['>'] ++ r' := by
              simp
            rw [hcut, List.length_append, Nat.add_sub_cancel, List.take_left] at htag
            rw [endsWord_append_gt] at hword
            exact ⟨by rw [← htag, hcut], k, attributes, htag.symm, hk, hword, hgt, htype⟩
          · cases h
      · cases h
  · rintro ⟨rfl, k, attributes, rfl, hk, hword, hgt, htype⟩
    have hcut : k ++ attributes ++ ['>'] ++ rest = k ++ (attributes ++ '>' :: rest) := by
      simp
    have hafter := Text.afterKeyword_append hk (attributes ++ '>' :: rest)
    have hsplit : Text.splitAtChar '>' (attributes ++ '>' :: rest) = some (attributes, rest) :=
      Text.splitAtChar_eq_some_iff.mpr ⟨rfl, hgt⟩
    rw [hcut, Element.opening?]
    change Text.afterKeyword "<script".toList _ = _ at hafter
    simp only [hafter, endsWord_append_gt, hword, hsplit, htype, if_true]
    rw [← hcut, List.length_append, Nat.add_sub_cancel, List.take_left]

theorem IsOpening.lt_head {tag : Text} (h : IsOpening tag) : ∃ tail, tag = '<' :: tail := by
  obtain ⟨k, attributes, rfl, hk, -⟩ := h
  obtain ⟨tail, rfl, -⟩ := Text.spelled_lt (w := "script".toList) hk (by decide)
  exact ⟨tail ++ attributes ++ ['>'], rfl⟩

theorem lt_not_mem_scriptTail : '<' ∉ scriptKeyword.tail := by
  decide

theorem gt_not_mem_of_spelled {k : Text} (h : k.map Text.fold = scriptKeyword) : '>' ∉ k := by
  intro hmem
  have hgt := Text.gt_mem_map_fold hmem
  rw [h] at hgt
  revert hgt
  decide

/-- The first `>` of an opening tag is its end. -/
theorem IsOpening.gt_last {tag : Text} (h : IsOpening tag) :
    ∃ inner, tag = inner ++ ['>'] ∧ '>' ∉ inner := by
  obtain ⟨k, attributes, rfl, hk, -, hgt, -⟩ := h
  refine ⟨k ++ attributes, rfl, ?_⟩
  rw [List.mem_append]
  rintro (hmem | hmem)
  · exact gt_not_mem_of_spelled hk hmem
  · exact hgt hmem

/-- A proper part of the front of an opening tag holds no `>`. -/
theorem IsOpening.gt_not_mem_of_append {b x : Text} (h : IsOpening (b ++ x)) (hx : x ≠ []) :
    '>' ∉ b := by
  obtain ⟨inner, hinner, hgt⟩ := h.gt_last
  intro hmem
  obtain ⟨s, u, rfl⟩ := List.append_of_mem hmem
  have hnil : u ++ x = [] := Text.eq_nil_of_concat_eq (a := s) hgt (by rw [← hinner]; simp)
  exact hx (List.append_eq_nil_iff.mp hnil).2

/-- A cut through an opening tag leaves a tag without its end, or splits the keyword. -/
theorem IsOpening.cut {b x : Text} (h : IsOpening (b ++ x)) (hx : x ≠ []) :
    IsUnclosed b ∨ b.length < scriptKeyword.length ∧ ∃ y z, y ≠ [] ∧ x = y ++ z ∧
      (b ++ y).map Text.fold = scriptKeyword := by
  have hb := h.gt_not_mem_of_append hx
  obtain ⟨k, attributes, htag, hk, hword, hgt, -⟩ := h
  rw [List.append_assoc] at htag
  rcases List.append_eq_append_iff.mp htag with ⟨y, hy, hrest⟩ | ⟨y, rfl, hrest⟩
  · cases y with
    | nil =>
        rw [List.append_nil] at hy
        subst hy
        exact .inl ⟨k, [], by simp, hk, rfl, by simp⟩
    | cons c y =>
        refine .inr ⟨?_, c :: y, attributes ++ ['>'], by simp, hrest, by rw [← hy, hk]⟩
        have hlen := congrArg List.length hk
        rw [hy, List.length_map, List.length_append, List.length_cons] at hlen
        omega
  · refine .inl ⟨k, y, rfl, hk, ?_, fun hmem => hb (List.mem_append_right k hmem)⟩
    cases y with
    | nil => rfl
    | cons c y =>
        cases attributes with
        | nil =>
            simp only [List.nil_append, List.cons_append, List.cons.injEq] at hrest
            exact absurd (by simp [← hrest.1]) hb
        | cons d attributes =>
            simp only [List.cons_append, List.cons.injEq] at hrest
            rw [← hrest.1]
            exact hword

/-- Markup does not continue a keyword, so a cut in front of it leaves a tag without its end. -/
theorem IsOpening.cut_lt {b u : Text} (h : IsOpening (b ++ '<' :: u)) (hb : b ≠ []) :
    IsUnclosed b := by
  rcases h.cut (by simp) with hopen | ⟨-, y, z, hy, hx, hspell⟩
  · exact hopen
  · cases b with
    | nil => exact absurd rfl hb
    | cons c b =>
        cases y with
        | nil => exact absurd rfl hy
        | cons d y =>
            simp only [List.cons_append, List.cons.injEq] at hx
            have htail := congrArg List.tail hspell
            simp only [List.cons_append, List.map_cons, List.tail_cons, List.map_append] at htail
            have hmem : '<' ∈ scriptKeyword.tail := by
              rw [← htail, ← hx.1]
              simp [Text.fold]
            exact absurd hmem lt_not_mem_scriptTail

theorem hasType_append_of_isWord {x y : Text} {c : Char} {inWord : Bool}
    (hc : Text.isWord c = true) (h : Element.hasType true y = true) :
    Element.hasType inWord (x ++ c :: y) = true := by
  induction x generalizing inWord with
  | nil => simp [Element.hasType, hc, h]
  | cons d x ih => simp [Element.hasType, ih]

/-- A tag without its end takes the next opening tag for attributes of its own. -/
theorem IsUnclosed.opening_append {b blanks o : Text} (h : IsUnclosed b)
    (hblanks : ∀ c ∈ blanks, Text.isBlank c = true) (ho : IsOpening o) :
    IsOpening (b ++ blanks ++ o) := by
  obtain ⟨k, attributes, rfl, hk, hword, hgt⟩ := h
  obtain ⟨k', attributes', rfl, hk', -, hgt', htype⟩ := ho
  obtain ⟨tail, htail, -⟩ := Text.spelled_lt (w := "script".toList) hk' (by decide)
  refine ⟨k, attributes ++ blanks ++ k' ++ attributes', by simp, hk, ?_, ?_, ?_⟩
  · cases attributes with
    | cons c attributes => exact hword
    | nil =>
        cases blanks with
        | nil => rw [htail]; rfl
        | cons c blanks => simp [Text.endsWord, Text.isWord_of_isBlank (hblanks c (by simp))]
  · have hblank : '>' ∉ blanks := Text.not_mem_of_all_blank hblanks rfl
    simp [hgt, hgt', hblank, gt_not_mem_of_spelled hk']
  · -- The keyword of the next tag ends in a letter, so its attributes start inside a word.
    obtain ⟨front, last, rfl⟩ : ∃ front last, k' = front ++ [last] :=
      ⟨_, _, (List.dropLast_concat_getLast (by simp [htail])).symm⟩
    have hlast : Text.fold last = 't' := by
      have hend : ((front ++ [last]).map Text.fold).getLast? = some 't' := by
        rw [hk']
        rfl
      rw [List.map_append, List.map_singleton, List.getLast?_concat] at hend
      exact Option.some.inj hend
    have hjoin : attributes ++ blanks ++ (front ++ [last]) ++ attributes' =
        attributes ++ blanks ++ front ++ last :: attributes' := by
      simp
    rw [hjoin]
    have hword : Text.isWord last = true :=
      Text.isWord_of_fold (by rw [hlast]; rfl) (by rw [hlast]; decide)
    exact hasType_append_of_isWord hword htype

end Markup

end PageManifest
