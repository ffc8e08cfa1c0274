import PageManifest.Proofs.Readings

/-! # Tags as they are usually written

An attribute is usually written as a name, an equals sign and a value between double
quotes, with blanks in front of it.  Inside such an attribute a word begins in the
name and in the value only, so what a tag shows to a reader is put together from
what the ends of its names and the insides of its values show.
-/

namespace PageManifest

namespace Markup

/-! ## Attributes -/

/-- An attribute with a name of words and hyphens, and a value that holds no markup. -/
structure WrittenAttribute where
  gap : Text
  name : Text
  value : Text
  gap_ne_nil : gap ≠ []
  gap_blank : gap.all Text.isBlank = true
  name_plain : name.all (fun c => Text.isWord c || c == '-') = true
  value_plain : value.all (fun c => !(['"', '<', '>'].contains c)) = true

namespace WrittenAttribute

/-- An attribute behind a single space. -/
def spaced (name value : Text)
    (hname : name.all (fun c => Text.isWord c || c == '-') = true)
    (hvalue : value.all (fun c => !(['"', '<', '>'].contains c)) = true) : WrittenAttribute :=
  ⟨[' '], name, value, by simp, rfl, hname, hvalue⟩

variable (a : WrittenAttribute)

def text : Text :=
  a.gap ++ (a.name ++ ('=' :: '"' :: (a.value ++ ['"'])))

/-- Whether an attribute has a name, letter case aside. -/
def isNamed (keyword : Text) : Bool :=
  a.name.map Text.fold == keyword

/-- Whether the name of an attribute is a keyword from the start of a word on. -/
def endsIn (keyword : Text) : Bool :=
  (Text.wordStarts false a.name).any fun part => part.map Text.fold == keyword

theorem gap_no_word : ∀ c ∈ a.gap, Text.isWord c = false :=
  fun c hc => Text.isWord_of_isBlank (List.all_eq_true.mp a.gap_blank c hc)

theorem mem_name {c : Char} (hc : c ∈ a.name) : Text.isWord c = true ∨ c = '-' := by
  have hplain := List.all_eq_true.mp a.name_plain c hc
  rwa [Bool.or_eq_true, beq_iff_eq] at hplain

theorem not_mem_value {c : Char} (hc : c ∈ ['"', '<', '>']) : c ∉ a.value := by
  intro hmem
  have hplain := List.all_eq_true.mp a.value_plain c hmem
  rw [Bool.not_eq_true', ← Bool.not_eq_true, List.contains_iff_mem] at hplain
  exact hplain hc

/-- A name ends in a keyword where it is the keyword, or ends in a hyphen and the keyword. -/
theorem endsIn_iff {keyword : Text} (hkeyword : Text.IsKeyword keyword) :
    a.endsIn keyword = true ↔ a.isNamed keyword = true ∨
      ∃ front part, a.name = front ++ '-' :: part ∧ part.map Text.fold = keyword := by
  unfold endsIn isNamed
  simp only [List.any_eq_true, beq_iff_eq, Text.mem_wordStarts_iff]
  constructor
  · rintro ⟨part, ⟨front, c, rest, hname, rfl, -, hword⟩, hpart⟩
    rcases List.eq_nil_or_concat front with rfl | ⟨front, d, rfl⟩
    · exact .inl (by rw [hname, List.nil_append, hpart])
    · rw [List.concat_eq_append, Text.inWordAfter_concat] at hword
      rcases a.mem_name (c := d) (by simp [hname]) with hd | rfl
      · rw [hword] at hd
        cases hd
      · exact .inr ⟨front, c :: rest, by simp [hname], hpart⟩
  · rintro (hname | ⟨front, part, hname, hpart⟩)
    · obtain ⟨c, rest, hcut, hc⟩ := hkeyword.exists_cons_of_spelled hname
      exact ⟨a.name, ⟨[], c, rest, rfl, hcut, hc, rfl⟩, hname⟩
    · obtain ⟨c, rest, hcut, hc⟩ := hkeyword.exists_cons_of_spelled hpart
      exact ⟨part, ⟨front ++ ['-'], c, rest, by simp [hname], hcut, hc,
        Text.inWordAfter_concat _ _ _⟩, hpart⟩

theorem inWordAfter_text (inWord : Bool) : Text.inWordAfter inWord a.text = false := by
  have hend : a.text = a.gap ++ (a.name ++ ('=' :: '"' :: a.value)) ++ ['"'] := by simp [text]
  rw [hend, Text.inWordAfter_concat]
  rfl

/-- In an attribute words begin in its name and in its value. -/
theorem wordStarts_text (inWord : Bool) : Text.wordStarts inWord a.text =
    (Text.wordStarts false a.name).map (· ++ '=' :: '"' :: (a.value ++ ['"'])) ++
      (Text.wordStarts false a.value).map (· ++ ['"']) := by
  have hequals : Text.isWord '=' = false := rfl
  have hquote : Text.isWord '"' = false := rfl
  rw [text, Text.wordStarts_append, Text.wordStarts_of_no_word a.gap_no_word,
    Text.inWordAfter_of_no_word a.gap_no_word a.gap_ne_nil, Text.wordStarts_append,
    Text.wordStarts_cons_of_not_isWord hequals, Text.wordStarts_cons_of_not_isWord hquote,
    Text.wordStarts_append, Text.wordStarts_cons_of_not_isWord hquote]
  simp [Text.wordStarts]

end WrittenAttribute

/-! ## Reading an attribute by its name -/

/-- The quote that opens a value is the only one in its lead. -/
theorem IsLead.cut {keyword lead : Text} {quote : Char} (hkeyword : Text.IsKeyword keyword)
    (h : IsLead keyword quote lead) : ∃ init, lead = init ++ [quote] ∧ '"' ∉ init := by
  obtain ⟨k, blanks, blanks', rfl, hk, hblanks, hblanks', -⟩ := h
  have hword : '"' ∉ k := fun hmem => Bool.false_ne_true (hkeyword.isWord_of_spelled hk hmem)
  have hblank := Text.not_mem_of_all_blank hblanks (c := '"') rfl
  have hblank' := Text.not_mem_of_all_blank hblanks' (c := '"') rfl
  exact ⟨k ++ (blanks ++ '=' :: blanks'), by simp, by simp [hword, hblank, hblank']⟩

/-- Behind a part of a name an equals sign and a quote follow at once. -/
theorem IsLead.of_named {keyword lead part rest after : Text} {quote : Char}
    (hkeyword : Text.IsKeyword keyword) (h : IsLead keyword quote lead)
    (hpart : ∀ c ∈ part, Text.isWord c = true ∨ c = '-')
    (hcut : part ++ '=' :: '"' :: after = lead ++ rest) :
    part.map Text.fold = keyword ∧ quote = '"' ∧ rest = after := by
  obtain ⟨k, blanks, blanks', rfl, hk, hblanks, hblanks', -⟩ := h
  have hplain : ∀ c, Text.isWord c = false → c ≠ '-' → c ∉ part := by
    intro c hword hhyphen hmem
    rcases hpart c hmem with hc | rfl
    · rw [hword] at hc
      cases hc
    · exact hhyphen rfl
  have hspelled : '=' ∉ k := fun hmem => Bool.false_ne_true (hkeyword.isWord_of_spelled hk hmem)
  have hblank : '=' ∉ blanks := Text.not_mem_of_all_blank hblanks rfl
  have hall : part ++ '=' :: '"' :: after =
      k ++ blanks ++ '=' :: (blanks' ++ quote :: rest) := by simp [hcut]
  obtain ⟨rfl, hquote⟩ := Text.append_cons_inj_of_not_mem (hplain '=' rfl (by decide))
    (by simp [hspelled, hblank]) hall
  have hnone : blanks = [] := by
    refine List.eq_nil_iff_forall_not_mem.mpr fun c hc => ?_
    have hc' := hblanks c hc
    refine hplain c (Text.isWord_of_isBlank hc') ?_ (List.mem_append_right k hc)
    rintro rfl
    cases hc'
  cases blanks' with
  | nil =>
      obtain ⟨rfl, rfl⟩ := List.cons.inj hquote
      exact ⟨by rw [hnone, List.append_nil, hk], rfl, rfl⟩
  | cons c blanks' =>
      have hc := hblanks' c List.mem_cons_self
      rw [← (List.cons.inj hquote).1] at hc
      cases hc

/-- The type of manifest stores and a quote stand at the start of a text. -/
def TypeBegins (t : Text) : Prop :=
  ∃ spelled quote rest, t = spelled ++ quote :: rest ∧ spelled.map Text.fold = manifestType ∧
    IsQuote quote

theorem typeHere_named_iff {part after : Text}
    (hpart : ∀ c ∈ part, Text.isWord c = true ∨ c = '-') :
    Element.typeHere (part ++ '=' :: '"' :: after) = true ↔
      part.map Text.fold = typeKeyword ∧ TypeBegins after := by
  rw [typeHere_iff]
  constructor
  · rintro ⟨lead, quote, spelled, quote', rest, hcut, hlead, hspelled, hquote'⟩
    obtain ⟨hname, -, hrest⟩ := hlead.of_named isKeyword_type hpart hcut
    exact ⟨hname, spelled, quote', rest, hrest.symm, hspelled, hquote'⟩
  · rintro ⟨hname, spelled, quote', rest, rfl, hspelled, hquote'⟩
    exact ⟨part ++ ['=', '"'], '"', spelled, quote', rest, by simp, isLead_named hname, hspelled,
      hquote'⟩

theorem hrefValue?_named {part value : Text} (hpart : ∀ c ∈ part, Text.isWord c = true ∨ c = '-')
    (hvalue : '"' ∉ value) (u : Text) :
    hrefValue? (part ++ '=' :: '"' :: (value ++ '"' :: u)) =
      if part.map Text.fold = hrefKeyword then some value else none := by
  have hcut : part ++ '=' :: '"' :: (value ++ '"' :: u) =
      part ++ ['=', '"'] ++ (value ++ '"' :: u) := by simp
  split
  · rename_i hname
    have hhere : hrefHere? (part ++ '=' :: '"' :: (value ++ '"' :: u)) =
        some ⟨part ++ ['=', '"'], value⟩ :=
      hrefHere?_eq_some_iff.mpr ⟨'"', u, hcut, isLead_named hname, hvalue⟩
    rw [hrefValue?, hhere, Option.map_some]
  · rename_i hname
    cases h : hrefHere? (part ++ '=' :: '"' :: (value ++ '"' :: u)) with
    | none => rw [hrefValue?, h, Option.map_none]
    | some found =>
        obtain ⟨quote, rest, hfound, hlead, -⟩ := hrefHere?_eq_some_iff.mp h
        exact absurd (hlead.of_named isKeyword_href hpart hfound).1 hname

/-! ## Reading inside a value -/

/-- Nothing follows, or a blank. -/
def Apart (u : Text) : Prop :=
  ∀ c v, u = c :: v → Text.isBlank c = true

theorem not_mem_of_spelled_manifestType {spelled : Text}
    (h : spelled.map Text.fold = manifestType) : '"' ∉ spelled :=
  Text.not_mem_of_spelled h (by decide)

/-- A type at the start of a value ends with the value at the latest. -/
theorem typeBegins_append_iff {value u : Text} :
    TypeBegins (value ++ '"' :: u) ↔ TypeBegins (value ++ ['"']) := by
  constructor
  · rintro ⟨spelled, quote, rest, hcut, hspelled, hquote⟩
    have hall : value ++ ['"'] ++ u = spelled ++ [quote] ++ rest := by simpa using hcut
    rcases List.append_eq_append_iff.mp hall with ⟨z, hz, -⟩ | ⟨z, hz, -⟩
    · have hnone : z = [] := Text.eq_nil_of_concat_eq (a := value)
        (not_mem_of_spelled_manifestType hspelled) (by simpa using hz)
      rw [hnone, List.append_nil] at hz
      exact ⟨spelled, quote, [], hz.symm, hspelled, hquote⟩
    · exact ⟨spelled, quote, z, by simp [hz], hspelled, hquote⟩
  · rintro ⟨spelled, quote, rest, hcut, hspelled, hquote⟩
    have hall : value ++ '"' :: u = value ++ ['"'] ++ u := by simp
    exact ⟨spelled, quote, rest ++ u, by simp [hall, hcut], hspelled, hquote⟩

/-- A spelled type begins with a letter. -/
theorem eq_cons_of_spelled_manifestType {spelled : Text}
    (h : spelled.map Text.fold = manifestType) :
    ∃ c rest, spelled = c :: rest ∧ Text.isBlank c = false := by
  cases spelled with
  | nil => cases h
  | cons c rest =>
      have hfold : Text.fold c = 'a' := (List.cons.inj h).1
      have hword : Text.isWord c = true :=
        Text.isWord_of_fold (by rw [hfold]; rfl) (by rw [hfold]; decide)
      refine ⟨c, rest, rfl, ?_⟩
      rw [← Bool.not_eq_true]
      intro hblank
      rw [Text.isWord_of_isBlank hblank] at hword
      cases hword

/-- No type goes on behind the first double quote where a blank follows it. -/
theorem type_ne_across {lead spelled b z : Text} {quote quote' c : Char} (hb : '"' ∉ b)
    (hlead : IsLead typeKeyword quote lead) (hspelled : spelled.map Text.fold = manifestType)
    (hc : Text.isBlank c = true) : lead ++ (spelled ++ [quote']) ≠ b ++ '"' :: c :: z := by
  intro hcut
  obtain ⟨init, rfl, hinit⟩ := hlead.cut isKeyword_type
  by_cases hdouble : quote = '"'
  · -- The quote would open the type, which does not begin with a blank.
    have hopened : init ++ '"' :: (spelled ++ [quote']) = b ++ '"' :: c :: z := by
      simpa [hdouble] using hcut
    obtain ⟨d, rest, rfl, hd⟩ := eq_cons_of_spelled_manifestType hspelled
    have hsame := List.cons.inj (Text.append_cons_inj_of_not_mem hinit hb hopened).2
    rw [hsame.1, hc] at hd
    cases hd
  · have hclosed : init ++ quote :: spelled ++ [quote'] = b ++ '"' :: c :: z := by
      simpa using hcut
    have hfree : '"' ∉ init ++ quote :: spelled := by
      simp [hinit, not_mem_of_spelled_manifestType hspelled, Ne.symm hdouble]
    cases Text.eq_nil_of_concat_eq hfree hclosed

/-- A type that is spelled inside a value ends with the value at the latest. -/
theorem typeHere_append_iff {b u : Text} (hb : '"' ∉ b) (hu : Apart u) :
    Element.typeHere (b ++ '"' :: u) = true ↔ Element.typeHere (b ++ ['"']) = true := by
  rw [typeHere_iff, typeHere_iff]
  constructor
  · rintro ⟨lead, quote, spelled, quote', rest, hcut, hlead, hspelled, hquote'⟩
    have hall : b ++ ['"'] ++ u = lead ++ (spelled ++ [quote']) ++ rest := by simpa using hcut
    rcases List.append_eq_append_iff.mp hall with ⟨z, hz, hrest⟩ | ⟨z, hz, -⟩
    · cases z with
      | nil =>
          have hend : b ++ ['"'] = lead ++ (spelled ++ quote' :: []) := by simpa using hz.symm
          exact ⟨lead, quote, spelled, quote', [], hend, hlead, hspelled, hquote'⟩
      | cons c z =>
          have hblank : Text.isBlank c = true := hu c (z ++ rest) hrest
          exact absurd (by simpa using hz) (type_ne_across hb hlead hspelled hblank)
    · exact ⟨lead, quote, spelled, quote', z, by simp [hz], hlead, hspelled, hquote'⟩
  · rintro ⟨lead, quote, spelled, quote', rest, hcut, hlead, hspelled, hquote'⟩
    have hall : b ++ '"' :: u = b ++ ['"'] ++ u := by simp
    exact ⟨lead, quote, spelled, quote', rest ++ u, by simp [hall, hcut], hlead, hspelled, hquote'⟩

/-! ## What an attribute shows -/

theorem findSome?_of_same {l : List Text} {f : Text → Option Text} {p : Text → Bool} {v : Text}
    (h : ∀ t ∈ l, f t = if p t then some v else none) :
    l.findSome? f = if l.any p then some v else none := by
  induction l with
  | nil => rfl
  | cons t l ih =>
      rw [List.findSome?_cons, List.any_cons, h t List.mem_cons_self,
        ih fun s hs => h s (List.mem_cons_of_mem t hs)]
      cases p t <;> rfl

namespace WrittenAttribute

variable (a : WrittenAttribute)

theorem mem_name_of_mem_wordStarts {part : Text} (hpart : part ∈ Text.wordStarts false a.name) :
    ∀ c ∈ part, Text.isWord c = true ∨ c = '-' :=
  fun _ hc => a.mem_name (Text.mem_of_mem_wordStarts hpart hc)

/--
Where a reader finds the type of manifest stores: behind the end of a name, or where
an attribute is spelled inside a value, which the quote behind the value may end.
-/
def ShowsType : Prop :=
  (a.endsIn typeKeyword = true ∧ TypeBegins (a.value ++ ['"'])) ∨
    ∃ inner ∈ Text.wordStarts false a.value, Element.typeHere (inner ++ ['"']) = true

/-- The attribute named `type` declares the type of manifest stores. -/
def DeclaresType : Prop :=
  a.isNamed typeKeyword = true ∧ a.value.map Text.fold = manifestType

theorem showsType_of_declaresType {a : WrittenAttribute} (h : a.DeclaresType) : a.ShowsType :=
  .inl ⟨(a.endsIn_iff isKeyword_type).mpr (.inl h.1), a.value, '"', [], rfl, h.2, .inl rfl⟩

theorem any_typeHere_iff (inWord : Bool) {u : Text} (hu : Apart u) :
    ((Text.wordStarts inWord a.text).any fun t => Element.typeHere (t ++ u)) = true ↔
      a.ShowsType := by
  rw [wordStarts_text, List.any_append, Bool.or_eq_true, List.any_map, List.any_map]
  refine or_congr ?_ ?_
  · have hname : ∀ part ∈ Text.wordStarts false a.name,
        (Element.typeHere (part ++ '=' :: '"' :: (a.value ++ ['"']) ++ u) = true ↔
          part.map Text.fold = typeKeyword ∧ TypeBegins (a.value ++ ['"'])) := by
      intro part hpart
      have hcut : part ++ '=' :: '"' :: (a.value ++ ['"']) ++ u =
          part ++ '=' :: '"' :: (a.value ++ '"' :: u) := by simp
      rw [hcut, typeHere_named_iff (a.mem_name_of_mem_wordStarts hpart), typeBegins_append_iff]
    simp only [List.any_eq_true, Function.comp_apply, endsIn, beq_iff_eq]
    constructor
    · rintro ⟨part, hpart, hhere⟩
      obtain ⟨hspelled, hbegins⟩ := (hname part hpart).mp hhere
      exact ⟨⟨part, hpart, hspelled⟩, hbegins⟩
    · rintro ⟨⟨part, hpart, hspelled⟩, hbegins⟩
      exact ⟨part, hpart, (hname part hpart).mpr ⟨hspelled, hbegins⟩⟩
  · have hvalue : ∀ inner ∈ Text.wordStarts false a.value,
        (Element.typeHere (inner ++ ['"'] ++ u) = true ↔
          Element.typeHere (inner ++ ['"']) = true) := by
      intro inner hinner
      rw [List.append_assoc, List.singleton_append]
      exact typeHere_append_iff
        (fun hmem => a.not_mem_value (by simp) (Text.mem_of_mem_wordStarts hinner hmem)) hu
    simp only [List.any_eq_true, Function.comp_apply]
    exact exists_congr fun inner => and_congr_right (hvalue inner)

/--
The target that a reader finds: the value behind a name that ends in the keyword, or
else what is spelled inside a value, which may run on into the text behind it.
-/
def shownHref? (behind : Text) : Option Text :=
  if a.endsIn hrefKeyword then some a.value
  else (Text.wordStarts false a.value).findSome? fun inner => hrefValue? (inner ++ '"' :: behind)

theorem findSome?_hrefValue? (inWord : Bool) (u : Text) :
    ((Text.wordStarts inWord a.text).findSome? fun t => hrefValue? (t ++ u)) =
      a.shownHref? u := by
  have hname : ((Text.wordStarts false a.name).findSome? fun part =>
      hrefValue? (part ++ '=' :: '"' :: (a.value ++ ['"']) ++ u)) =
        if a.endsIn hrefKeyword then some a.value else none := by
    refine findSome?_of_same fun part hpart => ?_
    have hcut : part ++ '=' :: '"' :: (a.value ++ ['"']) ++ u =
        part ++ '=' :: '"' :: (a.value ++ '"' :: u) := by simp
    rw [hcut, hrefValue?_named (a.mem_name_of_mem_wordStarts hpart) (a.not_mem_value (by simp))]
    simp only [beq_iff_eq]
  have hvalue : ((Text.wordStarts false a.value).findSome? fun inner =>
      hrefValue? (inner ++ ['"'] ++ u)) =
        (Text.wordStarts false a.value).findSome? fun inner => hrefValue? (inner ++ '"' :: u) := by
    simp only [List.append_assoc, List.singleton_append]
  rw [wordStarts_text, List.findSome?_append, List.findSome?_map, List.findSome?_map]
  refine (congr (congrArg Option.or hname) hvalue).trans ?_
  rw [shownHref?]
  split <;> rfl

/--
An attribute that shows a target by its name only: the name ends in the keyword only
where it is the keyword, and in the value no such attribute begins.
-/
def Plain : Prop :=
  (a.endsIn hrefKeyword = true → a.isNamed hrefKeyword = true) ∧
    ∀ inner ∈ Text.wordStarts false a.value, ∀ lead rest quote,
      inner ++ ['"'] = lead ++ rest → ¬ IsLead hrefKeyword quote lead

theorem shownHref?_of_plain {a : WrittenAttribute} (h : a.Plain) (behind : Text) :
    a.shownHref? behind = if a.isNamed hrefKeyword then some a.value else none := by
  obtain ⟨hname, hvalue⟩ := h
  have hsame : a.endsIn hrefKeyword = a.isNamed hrefKeyword :=
    Bool.eq_iff_iff.mpr ⟨hname, fun h => (a.endsIn_iff isKeyword_href).mpr (.inl h)⟩
  have hnone : ∀ inner ∈ Text.wordStarts false a.value,
      hrefValue? (inner ++ '"' :: behind) = none := by
    intro inner hinner
    cases hfound : hrefHere? (inner ++ '"' :: behind) with
    | none => rw [hrefValue?, hfound, Option.map_none]
    | some found =>
        exfalso
        obtain ⟨quote, rest, hcut, hlead, -⟩ := hrefHere?_eq_some_iff.mp hfound
        have hall : inner ++ ['"'] ++ behind = found.lead ++ (found.value ++ quote :: rest) := by
          simpa using hcut
        rcases List.append_eq_append_iff.mp hall with ⟨z, hz, -⟩ | ⟨z, hz, -⟩
        · -- The only double quote of a lead is its last character.
          obtain ⟨init, hinit, hfree⟩ := hlead.cut isKeyword_href
          have hnil : z = [] := Text.eq_nil_of_concat_eq (a := inner) hfree
            (by rw [← hinit, hz]; simp)
          exact hvalue inner hinner found.lead [] quote (by simp [hz, hnil]) hlead
        · exact hvalue inner hinner found.lead z quote hz hlead
  rw [shownHref?, hsame]
  split
  · rfl
  · exact List.findSome?_eq_none_iff.mpr hnone

end WrittenAttribute

end Markup

end PageManifest
