import PageManifest.Proofs.Backtracking
import PageManifest.Proofs.Element

/-! # The pattern of manifest elements

As a pattern an element leaves choices open: how much stands in front of the attribute
and behind it, which of several attributes is meant, and how far the body runs.  No
choice moves the end of the opening tag, and the shortest body comes first, so the
reader that looks for the first `>` and the first closing tag finds what backtracking
finds.
-/

namespace PageManifest.Markup

def isQuote (c : Char) : Bool :=
  c == '"' || c == '\''

/-- What stands in front of the type: its keyword, an equals sign and a quote. -/
def leadPattern : List Text.Step :=
  Text.literal typeKeyword ++
    [.most Text.isBlank, .one (· == '='), .most Text.isBlank, .one isQuote]

/-- A `type` attribute for manifest stores, with a quote of either kind on either side. -/
def typePattern : List Text.Step :=
  leadPattern ++ (Text.literal manifestType ++ [.one isQuote])

def openingPattern : List Text.Step :=
  Text.literal scriptKeyword ++
    ([.edge, .fewest (· != '>'), .edge] ++ (typePattern ++ [.most (· != '>'), .one (· == '>')]))

def closingPattern : List Text.Step :=
  Text.literal "</script".toList ++ [.most Text.isBlank, .one (· == '>')]

/-- The readings of the pattern of an element: its opening tag, any body, its closing tag. -/
def Element.readings (inWord : Bool) (t : Text) : List (Element × Text) :=
  (Text.tries inWord openingPattern t).flatMap fun o =>
    (Text.cuts (fun _ => true) o.2).flatMap fun b =>
      (Text.tries (Text.inWordAfter inWord (o.1 ++ b.1)) closingPattern b.2).map fun c =>
        (⟨o.1, b.1, c.1⟩, c.2)

/-- A `type` attribute for manifest stores. -/
def IsTypeAttribute (a : Text) : Prop :=
  ∃ lead quote value quote', a = lead ++ (value ++ [quote']) ∧ IsLead typeKeyword quote lead ∧
    value.map Text.fold = manifestType ∧ IsQuote quote'

theorem isQuote_iff {c : Char} : isQuote c = true ↔ IsQuote c := by
  rw [isQuote, Bool.or_eq_true, beq_iff_eq, beq_iff_eq, IsQuote]

theorem takes_leadPattern_iff {inWord : Bool} {x r : Text} :
    Text.Takes inWord leadPattern x r ↔ ∃ quote, IsLead typeKeyword quote x := by
  simp only [leadPattern, Text.takes_append_iff, Text.takes_literal_iff, Text.takes_most_iff,
    Text.takes_one_iff, Text.takes_nil_iff, beq_iff_eq, isQuote_iff]
  constructor
  · rintro ⟨k, _, rfl, hk, blanks, _, rfl, hblanks, _, _, rfl, rfl, blanks', _, rfl, hblanks',
      quote, _, rfl, hquote, rfl⟩
    exact ⟨quote, k, blanks, blanks', rfl, hk, hblanks, hblanks', hquote⟩
  · rintro ⟨quote, k, blanks, blanks', rfl, hk, hblanks, hblanks', hquote⟩
    exact ⟨k, _, rfl, hk, blanks, _, rfl, hblanks, '=', _, rfl, rfl, blanks', _, rfl, hblanks',
      quote, [], rfl, hquote, rfl⟩

theorem takes_typePattern_iff {inWord : Bool} {x r : Text} :
    Text.Takes inWord typePattern x r ↔ IsTypeAttribute x := by
  simp only [typePattern, Text.takes_append_iff, takes_leadPattern_iff, Text.takes_literal_iff,
    Text.takes_one_iff, Text.takes_nil_iff, isQuote_iff]
  constructor
  · rintro ⟨lead, _, rfl, ⟨quote, hlead⟩, value, _, rfl, hvalue, quote', _, rfl, hquote', rfl⟩
    exact ⟨lead, quote, value, quote', rfl, hlead, hvalue, hquote'⟩
  · rintro ⟨lead, quote, value, quote', rfl, hlead, hvalue, hquote'⟩
    exact ⟨lead, _, rfl, ⟨quote, hlead⟩, value, _, rfl, hvalue, quote', [], rfl, hquote', rfl⟩

theorem IsTypeAttribute.gt_not_mem {a : Text} (h : IsTypeAttribute a) : '>' ∉ a := by
  obtain ⟨lead, quote, value, quote', rfl, ⟨k, blanks, blanks', rfl, hk, hblanks, hblanks',
    hquote⟩, hvalue, hquote'⟩ := h
  have hkey : '>' ∉ k := Text.not_mem_of_spelled hk (by decide)
  have hspelled : '>' ∉ value := Text.not_mem_of_spelled hvalue (by decide)
  have hfirst : '>' ∉ blanks := Text.not_mem_of_all_blank hblanks rfl
  have hsecond : '>' ∉ blanks' := Text.not_mem_of_all_blank hblanks' rfl
  have hleft : quote ≠ '>' := by rcases hquote with rfl | rfl <;> decide
  have hright : quote' ≠ '>' := by rcases hquote' with rfl | rfl <;> decide
  simp [hkey, hspelled, hfirst, hsecond, hleft.symm, hright.symm]

theorem IsTypeAttribute.exists_cons {a : Text} (h : IsTypeAttribute a) :
    ∃ c rest, a = c :: rest ∧ Text.isWord c = true := by
  obtain ⟨_, quote, value, quote', rfl, ⟨k, blanks, blanks', rfl, hk, -⟩, -⟩ := h
  obtain ⟨c, k, rfl, hc⟩ := isKeyword_type.exists_cons_of_spelled hk
  exact ⟨c, _, rfl, hc⟩

/-- No word ends in front of a `type` attribute. -/
theorem IsTypeAttribute.endsWord {a : Text} (h : IsTypeAttribute a) (rest : Text) :
    Text.endsWord (a ++ rest) = false := by
  obtain ⟨c, tail, rfl, hc⟩ := h.exists_cons
  simp [Text.endsWord, hc]

/-- The walk for a type finds exactly the attributes that begin where a word begins. -/
theorem hasType_iff {inWord : Bool} {t : Text} : Element.hasType inWord t = true ↔
    ∃ front a rest, t = front ++ (a ++ rest) ∧ Text.inWordAfter inWord front = false ∧
      IsTypeAttribute a := by
  rw [hasType_eq, List.any_eq_true]
  constructor
  · rintro ⟨u, hu, htype⟩
    obtain ⟨front, _, _, rfl, -, -, hword⟩ := Text.mem_wordStarts_iff.mp hu
    obtain ⟨lead, quote, value, quote', rest, rfl, hlead, hvalue, hquote⟩ := typeHere_iff.mp htype
    exact ⟨front, lead ++ (value ++ [quote']), rest, by simp, hword, lead, quote, value, quote',
      rfl, hlead, hvalue, hquote⟩
  · rintro ⟨front, a, rest, rfl, hword, ha⟩
    obtain ⟨c, tail, hcons, hc⟩ := ha.exists_cons
    obtain ⟨lead, quote, value, quote', rfl, hlead, hvalue, hquote⟩ := ha
    refine ⟨_, Text.mem_wordStarts_iff.mpr ⟨front, c, tail ++ rest, rfl, by rw [hcons]; rfl, hc,
      hword⟩, typeHere_iff.mpr ⟨lead, quote, value, quote', rest, by simp, hlead, hvalue, hquote⟩⟩

-- The edge is that of a word and not of a name, so the end of a longer name will do.
example : Element.hasType true " data-type='application/c2pa-manifest'".toList = true := by
  rfl

/-- A spelling of the `script` keyword ends inside a word. -/
theorem inWordAfter_script {k : Text} (hk : k.map Text.fold = scriptKeyword) (inWord : Bool) :
    Text.inWordAfter inWord k = true := by
  obtain ⟨front, last, rfl, -, hlast⟩ := List.map_eq_append_iff.mp
    (hk.trans (show scriptKeyword = "<scrip".toList ++ ['t'] from rfl))
  obtain ⟨c, _, rfl, hc, hnil⟩ := List.map_eq_cons_iff.mp hlast
  obtain rfl := List.map_eq_nil_iff.mp hnil
  rw [Text.inWordAfter_concat]
  exact Text.isWord_of_fold (by rw [hc]; rfl) (by rw [hc]; decide)

theorem forall_ne_gt_iff {x : Text} : (∀ c ∈ x, (c != '>') = true) ↔ '>' ∉ x := by
  simp only [bne_iff_ne]
  constructor
  · intro h hmem
    exact h '>' hmem rfl
  · rintro h c hc rfl
    exact h hc

/-- The pattern takes the opening tags: whatever run is tried, the first `>` is the end. -/
theorem takes_openingPattern_iff {inWord : Bool} {x r : Text} :
    Text.Takes inWord openingPattern x r ↔ IsOpening x := by
  simp only [openingPattern, Text.takes_append_iff, Text.takes_literal_iff, takes_typePattern_iff,
    List.cons_append, List.nil_append, Text.takes_edge_iff, Text.takes_fewest_iff,
    Text.takes_most_iff, Text.takes_one_iff, Text.takes_nil_iff, forall_ne_gt_iff, beq_iff_eq]
  constructor
  · rintro ⟨k, _, rfl, hk, hends, front, _, rfl, hfront, hedge, a, _, rfl, ha, back, _, rfl, hback,
      _, _, rfl, rfl, rfl⟩
    rw [inWordAfter_script hk] at hends hedge
    have hjoin : front ++ (a ++ (back ++ ['>'])) ++ r = front ++ (a ++ back) ++ '>' :: r := by
      simp
    rw [hjoin, endsWord_append_gt] at hends
    refine ⟨k, front ++ (a ++ back), by simp, hk, hends.symm, ?_, ?_⟩
    · simp [hfront, hback, ha.gt_not_mem]
    · refine hasType_iff.mpr ⟨front, a, back, rfl, ?_, ha⟩
      rw [hedge, List.append_assoc, ha.endsWord]
  · rintro ⟨k, attributes, rfl, hk, hends, hgt, htype⟩
    obtain ⟨front, a, back, rfl, hword, ha⟩ := hasType_iff.mp htype
    have hjoin : front ++ (a ++ (back ++ ['>'])) ++ r = front ++ (a ++ back) ++ '>' :: r := by
      simp
    simp only [List.mem_append, not_or] at hgt
    refine ⟨k, front ++ (a ++ (back ++ ['>'])), by simp, hk, ?_, front, _, rfl, hgt.1, ?_, a, _,
      rfl, ha, back, _, rfl, hgt.2.2, '>', [], rfl, rfl, rfl⟩
    · rw [inWordAfter_script hk, hjoin, endsWord_append_gt, hends]
    · rw [inWordAfter_script hk, hword, List.append_assoc, ha.endsWord]

/-- The pattern takes the closing tags. -/
theorem takes_closingPattern_iff {inWord : Bool} {x r : Text} :
    Text.Takes inWord closingPattern x r ↔ IsEndTag "</script".toList x := by
  simp only [closingPattern, Text.takes_append_iff, Text.takes_literal_iff, Text.takes_most_iff,
    Text.takes_one_iff, Text.takes_nil_iff, beq_iff_eq]
  constructor
  · rintro ⟨k, _, rfl, hk, blanks, _, rfl, hblanks, _, _, rfl, rfl, rfl⟩
    exact ⟨k, blanks, by simp, hk, hblanks⟩
  · rintro ⟨k, blanks, rfl, hk, hblanks⟩
    exact ⟨k, blanks ++ ['>'], by simp, hk, blanks, _, rfl, hblanks, '>', [], rfl, rfl, rfl⟩

namespace Element

/-- Backtracking never opens an element otherwise than its reader does. -/
theorem mem_tries_opening_iff (inWord : Bool) (t : Text) (o : Text × Text) :
    o ∈ Text.tries inWord openingPattern t ↔ opening? t = some o :=
  reads_opening?.mem_tries_iff (fun _ _ => takes_openingPattern_iff) t o

theorem mem_tries_closing_iff (inWord : Bool) (t : Text) (c : Text × Text) :
    c ∈ Text.tries inWord closingPattern t ↔ closing? t = some c :=
  reads_closing?.mem_tries_iff (fun _ _ => takes_closingPattern_iff) t c

/-- The first reading of the pattern of an element is the element that the reader returns. -/
theorem head?_readings (inWord : Bool) (t : Text) : (readings inWord t).head? = here? t := by
  rw [readings, Text.head?_flatMap_of_mem_iff (mem_tries_opening_iff inWord t), here?]
  cases opening? t with
  | none => rfl
  | some o =>
      simp only [Option.bind_some, List.head?_flatMap, List.head?_map,
        Text.head?_eq_of_mem_iff (mem_tries_closing_iff _ _)]
      rw [← Text.findSome?_cuts closing? o.2, List.map_findSome?]
      refine congrArg (List.findSome? · _) (funext fun p => ?_)
      simp only [Function.comp_apply, Option.map_map]
      rfl

/-- The search for an element is a leftmost search with backtracking. -/
theorem find?_eq_search (t : Text) : find? t = Text.search readings t :=
  (Text.search_eq_findFirst head?_readings t).symm

end Element

end PageManifest.Markup
