import PageManifest.Markup.Reference
import PageManifest.Proofs.Tags

/-! # How attributes are read

An attribute is read where a word begins: its keyword, an equals sign and a quote,
with blanks between them, and then its value.  Both walks that look for an attribute
in a tag go over the places where a word begins, so what they find in a tag is what
they find in its parts.
-/

namespace PageManifest

namespace Text

theorem dropWhile_isBlank_eq_cons_iff {t rest : Text} {c : Char} (hc : isBlank c = false) :
    t.dropWhile isBlank = c :: rest ↔
      ∃ blanks, t = blanks ++ c :: rest ∧ ∀ d ∈ blanks, isBlank d = true := by
  constructor
  · intro h
    have hcut := List.takeWhile_append_dropWhile (p := isBlank) (l := t)
    rw [h] at hcut
    exact ⟨t.takeWhile isBlank, hcut.symm, List.all_eq_true.mp List.all_takeWhile⟩
  · rintro ⟨blanks, rfl, hblanks⟩
    rw [List.dropWhile_append_of_pos hblanks, List.dropWhile_cons_of_neg (by simp [hc])]

/-- Whether a word is under way behind a text; `inWord` tells whether one is in front of it. -/
def inWordAfter (inWord : Bool) : Text → Bool
  | [] => inWord
  | c :: t => inWordAfter (isWord c) t

theorem inWordAfter_append (inWord : Bool) (s t : Text) :
    inWordAfter inWord (s ++ t) = inWordAfter (inWordAfter inWord s) t := by
  induction s generalizing inWord with
  | nil => rfl
  | cons c s ih => exact ih (isWord c)

theorem inWordAfter_concat (inWord : Bool) (s : Text) (c : Char) :
    inWordAfter inWord (s ++ [c]) = isWord c :=
  inWordAfter_append inWord s [c]

theorem inWordAfter_of_no_word {s : Text} (hs : ∀ c ∈ s, isWord c = false) (hne : s ≠ [])
    (inWord : Bool) : inWordAfter inWord s = false := by
  obtain ⟨front, c, rfl⟩ : ∃ front c, s = front ++ [c] :=
    ⟨_, _, (List.dropLast_concat_getLast hne).symm⟩
  rw [inWordAfter_concat]
  exact hs c (by simp)

/-- The text from each place on where a word begins; `inWord` tells whether one is in front. -/
def wordStarts (inWord : Bool) : Text → List Text
  | [] => []
  | c :: t =>
      if !inWord && isWord c then (c :: t) :: wordStarts (isWord c) t
      else wordStarts (isWord c) t

theorem wordStarts_cons_of_not_isWord {c : Char} (hc : isWord c = false) (inWord : Bool)
    (t : Text) : wordStarts inWord (c :: t) = wordStarts false t := by
  rw [wordStarts, if_neg (by simp [hc]), hc]

theorem wordStarts_append (inWord : Bool) (s t : Text) : wordStarts inWord (s ++ t) =
    (wordStarts inWord s).map (· ++ t) ++ wordStarts (inWordAfter inWord s) t := by
  induction s generalizing inWord with
  | nil => rfl
  | cons c s ih =>
      rw [List.cons_append, wordStarts, wordStarts, ih]
      split <;> rfl

theorem wordStarts_of_no_word {s : Text} (hs : ∀ c ∈ s, isWord c = false) (inWord : Bool) :
    wordStarts inWord s = [] := by
  induction s generalizing inWord with
  | nil => rfl
  | cons c s ih =>
      rw [wordStarts_cons_of_not_isWord (hs c (by simp)), ih fun d hd => hs d (by simp [hd])]

/-- A word begins at the front of a text and behind what is no part of a word. -/
theorem mem_wordStarts_iff {inWord : Bool} {t u : Text} : u ∈ wordStarts inWord t ↔
    ∃ front c rest, t = front ++ u ∧ u = c :: rest ∧ isWord c = true ∧
      inWordAfter inWord front = false := by
  induction t generalizing inWord with
  | nil =>
      constructor
      · intro h
        cases h
      · rintro ⟨front, c, rest, hcut, rfl, -⟩
        exact absurd (List.append_eq_nil_iff.mp hcut.symm).2 (by simp)
  | cons d t ih =>
      have hskip : u ∈ wordStarts (isWord d) t ↔ ∃ front c rest, d :: t = d :: front ++ u ∧
          u = c :: rest ∧ isWord c = true ∧ inWordAfter inWord (d :: front) = false := by
        simp only [List.cons_append, List.cons.injEq, true_and, inWordAfter, ih]
      rw [wordStarts]
      constructor
      · intro h
        split at h
        · rename_i hbegins
          rw [Bool.and_eq_true, Bool.not_eq_true'] at hbegins
          rcases List.mem_cons.mp h with rfl | h
          · exact ⟨[], d, t, rfl, rfl, hbegins.2, hbegins.1⟩
          · obtain ⟨front, hfront⟩ := hskip.mp h
            exact ⟨d :: front, hfront⟩
        · obtain ⟨front, hfront⟩ := hskip.mp h
          exact ⟨d :: front, hfront⟩
      · rintro ⟨front, c, rest, hcut, hu, hc, hword⟩
        cases front with
        | nil =>
            have hhere : d :: t = c :: rest := hcut.trans hu
            obtain ⟨rfl, rfl⟩ := List.cons.inj hhere
            have hbegins : (!inWord && isWord d) = true := by
              rw [hc, Bool.and_true, Bool.not_eq_true']
              exact hword
            rw [if_pos hbegins, hu]
            exact List.mem_cons_self
        | cons e front =>
            have hrest : u ∈ wordStarts (isWord d) t := by
              rw [List.cons_append, List.cons.injEq] at hcut
              obtain ⟨rfl, rfl⟩ := hcut
              exact hskip.mpr ⟨front, c, rest, rfl, hu, hc, hword⟩
            split
            · exact List.mem_cons_of_mem _ hrest
            · exact hrest

theorem mem_of_mem_wordStarts {inWord : Bool} {t u : Text} (hu : u ∈ wordStarts inWord t)
    {c : Char} (hc : c ∈ u) : c ∈ t := by
  obtain ⟨front, _, _, rfl, -⟩ := mem_wordStarts_iff.mp hu
  exact List.mem_append_right front hc

/-- A keyword of letters that have no spelling beyond ASCII. -/
def IsKeyword (keyword : Text) : Prop :=
  keyword ≠ [] ∧ keyword.all (fun d => isWord d && !(['i', 's', 'k'].contains d)) = true

theorem IsKeyword.isWord_of_spelled {k keyword : Text} (hk : IsKeyword keyword)
    (h : k.map fold = keyword) {c : Char} (hc : c ∈ k) : isWord c = true := by
  have hfold := List.all_eq_true.mp hk.2 (fold c) (h ▸ List.mem_map_of_mem hc)
  rw [Bool.and_eq_true, Bool.not_eq_true', ← Bool.not_eq_true, List.contains_iff_mem] at hfold
  exact isWord_of_fold hfold.1 hfold.2

/-- A spelled keyword begins a word. -/
theorem IsKeyword.exists_cons_of_spelled {k keyword : Text} (hk : IsKeyword keyword)
    (h : k.map fold = keyword) : ∃ c rest, k = c :: rest ∧ isWord c = true := by
  cases k with
  | nil => exact absurd h.symm hk.1
  | cons c rest => exact ⟨c, rest, rfl, hk.isWord_of_spelled h List.mem_cons_self⟩

/-- Characters that are compared as none of a keyword are in no spelling of it. -/
theorem not_mem_of_spelled {k keyword : Text} (h : k.map fold = keyword) {c : Char}
    (hc : fold c ∉ keyword) : c ∉ k := by
  intro hmem
  rw [← h] at hc
  exact hc (List.mem_map_of_mem hmem)

end Text

namespace Markup

def IsQuote (c : Char) : Prop :=
  c = '"' ∨ c = '\''

/-- What stands in front of a value: a keyword, an equals sign and the quote that opens it. -/
def IsLead (keyword : Text) (quote : Char) (lead : Text) : Prop :=
  ∃ k blanks blanks', lead = k ++ (blanks ++ '=' :: (blanks' ++ [quote])) ∧
    k.map Text.fold = keyword ∧ (∀ c ∈ blanks, Text.isBlank c = true) ∧
    (∀ c ∈ blanks', Text.isBlank c = true) ∧ IsQuote quote

theorem isBlank_of_isQuote {c : Char} (h : IsQuote c) : Text.isBlank c = false := by
  rcases h with rfl | rfl <;> rfl

def typeKeyword : Text :=
  "type".toList

def hrefKeyword : Text :=
  "href".toList

/-- A lead is read off by its keyword, its equals sign and its quote, one after the other. -/
theorem isLead_cut_iff {keyword t rest : Text} {quote : Char} :
    (∃ lead, t = lead ++ rest ∧ IsLead keyword quote lead) ↔
      ∃ r r', Text.afterKeyword keyword t = some r ∧ r.dropWhile Text.isBlank = '=' :: r' ∧
        r'.dropWhile Text.isBlank = quote :: rest ∧ IsQuote quote := by
  constructor
  · rintro ⟨_, rfl, k, blanks, blanks', rfl, hk, hblanks, hblanks', hquote⟩
    have hcut : k ++ (blanks ++ '=' :: (blanks' ++ [quote])) ++ rest =
        k ++ (blanks ++ '=' :: (blanks' ++ quote :: rest)) := by simp
    rw [hcut]
    exact ⟨_, _, Text.afterKeyword_append hk _,
      (Text.dropWhile_isBlank_eq_cons_iff rfl).mpr ⟨blanks, rfl, hblanks⟩,
      (Text.dropWhile_isBlank_eq_cons_iff (isBlank_of_isQuote hquote)).mpr ⟨blanks', rfl, hblanks'⟩,
      hquote⟩
  · rintro ⟨r, r', hkey, hequals, hopened, hquote⟩
    obtain ⟨k, rfl, hk⟩ := Text.afterKeyword_eq_some_iff.mp hkey
    obtain ⟨blanks, rfl, hblanks⟩ := (Text.dropWhile_isBlank_eq_cons_iff rfl).mp hequals
    obtain ⟨blanks', rfl, hblanks'⟩ :=
      (Text.dropWhile_isBlank_eq_cons_iff (isBlank_of_isQuote hquote)).mp hopened
    exact ⟨k ++ (blanks ++ '=' :: (blanks' ++ [quote])), by simp, k, blanks, blanks', rfl, hk,
      hblanks, hblanks', hquote⟩

theorem isLead_named {keyword part : Text} (h : part.map Text.fold = keyword) :
    IsLead keyword '"' (part ++ ['=', '"']) :=
  ⟨part, [], [], by simp, h, by simp, by simp, .inl rfl⟩

/-- A `type` attribute for manifest stores is a lead, the type and any quote. -/
theorem typeHere_iff {t : Text} : Element.typeHere t = true ↔
    ∃ lead quote value quote' rest, t = lead ++ (value ++ quote' :: rest) ∧
      IsLead typeKeyword quote lead ∧ value.map Text.fold = manifestType ∧ IsQuote quote' := by
  have hquoted : ∀ {c : Char}, (c == '"' || c == '\'') = true ↔ IsQuote c := by
    intro c
    rw [Bool.or_eq_true, beq_iff_eq, beq_iff_eq, IsQuote]
  constructor
  · intro h
    unfold Element.typeHere at h
    split at h
    · cases h
    · rename_i r hkey
      split at h
      · rename_i r' hequals
        split at h
        · rename_i quote rest hopened
          rw [Bool.and_eq_true, hquoted] at h
          obtain ⟨lead, rfl, hlead⟩ := isLead_cut_iff.mpr ⟨r, r', hkey, hequals, hopened, h.1⟩
          have hvalue := h.2
          split at hvalue
          · rename_i quote' after hafter
            obtain ⟨value, rfl, hv⟩ := Text.afterKeyword_eq_some_iff.mp hafter
            exact ⟨lead, quote, value, quote', after, rfl, hlead, hv, hquoted.mp hvalue⟩
          · cases hvalue
        · cases h
      · cases h
  · rintro ⟨lead, quote, value, quote', rest, hcut, hlead, hv, hquote'⟩
    obtain ⟨r, r', hkey, hequals, hopened, hquote⟩ := isLead_cut_iff.mp ⟨lead, hcut, hlead⟩
    change Text.afterKeyword "type".toList t = _ at hkey
    rw [Element.typeHere, hkey]
    simp only [hequals, hopened, hquoted.mpr hquote, Text.afterKeyword_append hv,
      hquoted.mpr hquote', Bool.and_self]

/-- An `href` attribute is a lead and a value, which ends at the next quote of the same kind. -/
theorem hrefHere?_eq_some_iff {t : Text} {a : Attribute} : hrefHere? t = some a ↔
    ∃ quote rest, t = a.lead ++ (a.value ++ quote :: rest) ∧ IsLead hrefKeyword quote a.lead ∧
      quote ∉ a.value := by
  constructor
  · intro h
    unfold hrefHere? at h
    split at h
    · cases h
    · rename_i r hkey
      split at h
      · rename_i r' hequals
        split at h
        · rename_i quote rest hopened
          split at h
          · rename_i hquote
            obtain ⟨lead, rfl, hlead⟩ := isLead_cut_iff.mpr ⟨r, r', hkey, hequals, hopened, hquote⟩
            obtain ⟨⟨value, after⟩, hsplit, rfl⟩ := Option.map_eq_some_iff.mp h
            obtain ⟨rfl, hv⟩ := Text.splitAtChar_eq_some_iff.mp hsplit
            rw [List.length_append, Nat.add_sub_cancel, List.take_left]
            exact ⟨quote, after, rfl, hlead, hv⟩
          · cases h
        · cases h
      · cases h
  · rintro ⟨quote, rest, rfl, hlead, hv⟩
    obtain ⟨r, r', hkey, hequals, hopened, hquote⟩ := isLead_cut_iff.mp ⟨a.lead, rfl, hlead⟩
    have hsplit : Text.splitAtChar quote (a.value ++ quote :: rest) = some (a.value, rest) :=
      Text.splitAtChar_eq_some_iff.mpr ⟨rfl, hv⟩
    change Text.afterKeyword "href".toList _ = _ at hkey
    rw [hrefHere?, hkey]
    simp only [hequals, hopened, hsplit, Option.map_some]
    rw [List.length_append, Nat.add_sub_cancel, List.take_left]
    exact if_pos hquote

theorem isKeyword_type : Text.IsKeyword typeKeyword :=
  ⟨by decide, rfl⟩

theorem isKeyword_href : Text.IsKeyword hrefKeyword :=
  ⟨by decide, rfl⟩

/-- A lead begins with a word. -/
theorem IsLead.isWord_head {keyword lead rest t : Text} {quote c : Char}
    (hkeyword : Text.IsKeyword keyword) (h : IsLead keyword quote lead)
    (hcut : c :: t = lead ++ rest) : Text.isWord c = true := by
  obtain ⟨k, blanks, blanks', rfl, hk, -⟩ := h
  obtain ⟨d, k, rfl, hd⟩ := hkeyword.exists_cons_of_spelled hk
  rw [List.cons_append, List.cons_append, List.cons.injEq] at hcut
  rw [hcut.1]
  exact hd

/-! ## The walks -/

theorem typeHere_of_not_isWord {c : Char} (hc : Text.isWord c = false) (t : Text) :
    Element.typeHere (c :: t) = false := by
  rw [← Bool.not_eq_true]
  intro h
  obtain ⟨lead, quote, value, quote', rest, hcut, hlead, -⟩ := typeHere_iff.mp h
  rw [hlead.isWord_head isKeyword_type hcut] at hc
  cases hc

/-- The walk for a type goes over the places where a word begins. -/
theorem hasType_eq (inWord : Bool) (t : Text) :
    Element.hasType inWord t = (Text.wordStarts inWord t).any Element.typeHere := by
  induction t generalizing inWord with
  | nil => rfl
  | cons c t ih =>
      rw [Element.hasType, ih, Text.wordStarts]
      cases hc : Text.isWord c with
      | false => simp [typeHere_of_not_isWord hc]
      | true => cases inWord <;> simp

/-- The value of an `href` attribute at the start of a text. -/
def hrefValue? (t : Text) : Option Text :=
  (hrefHere? t).map Attribute.value

theorem hrefHere?_of_not_isWord {c : Char} (hc : Text.isWord c = false) (t : Text) :
    hrefHere? (c :: t) = none := by
  cases h : hrefHere? (c :: t) with
  | none => rfl
  | some a =>
      obtain ⟨quote, rest, hcut, hlead, -⟩ := hrefHere?_eq_some_iff.mp h
      rw [hlead.isWord_head isKeyword_href hcut] at hc
      cases hc

/-- The walk for a target goes over the places where a word begins. -/
theorem value_hrefFrom (passed : Text) (inWord : Bool) (t : Text) :
    (hrefFrom passed inWord t).map Attribute.value =
      (Text.wordStarts inWord t).findSome? hrefValue? := by
  induction t generalizing passed inWord with
  | nil => rfl
  | cons c t ih =>
      rw [hrefFrom, Text.wordStarts]
      cases hc : Text.isWord c with
      | false => 
          have hnone := hrefHere?_of_not_isWord hc t
          cases inWord <;> simp [hnone, ih]
      | true =>
          cases inWord with
          | true => simp [ih]
          | false =>
              cases h : hrefHere? (c :: t) <;> simp [hrefValue?, h, ih]

/-- The value that is found stands in the tag behind what is in front of it. -/
theorem exists_cut_of_hrefFrom {passed t : Text} {inWord : Bool} {a : Attribute}
    (h : hrefFrom passed inWord t = some a) :
    ∃ rest, passed.reverse ++ t = a.lead ++ (a.value ++ rest) := by
  induction t generalizing passed inWord with
  | nil => cases h
  | cons c t ih =>
      rw [hrefFrom] at h
      split at h
      · rename_i b hb
        obtain rfl := Option.some.inj h
        have hhere : hrefHere? (c :: t) = some b := by
          cases inWord with
          | true => cases hb
          | false => exact hb
        obtain ⟨quote, rest, hcut, -⟩ := hrefHere?_eq_some_iff.mp hhere
        exact ⟨quote :: rest, by simp [hcut]⟩
      · obtain ⟨rest, hrest⟩ := ih h
        exact ⟨rest, by simpa using hrest⟩

theorem href?_cut {tag : Text} {a : Attribute} (h : href? tag = some a) :
    ∃ rest, tag = a.lead ++ (a.value ++ rest) :=
  exists_cut_of_hrefFrom h

end Markup

end PageManifest
