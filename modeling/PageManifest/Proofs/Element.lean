import PageManifest.Proofs.Tags
import PageManifest.Proofs.Trim

/-! # The grammar of manifest elements

An element is an opening tag, a body without a closing tag, and a closing tag.
Like a tag it is recognised by its own characters, so a search for elements is
decided by the openings that the text in front of an element leaves.
-/

namespace PageManifest.Markup

/-- The parts of an element are what they are called, and the body holds no closing tag. -/
structure IsElement (e : Element) : Prop where
  opening : IsOpening e.opening
  body : Text.findFirst Element.closing? e.body = none
  closing : IsEndTag "</script".toList e.closing

namespace Element

theorem reads_closing? : Text.Reads closing? (IsEndTag "</script".toList) :=
  reads_endTag? _

theorem closing_lt_head {tag : Text} (h : IsEndTag "</script".toList tag) :
    ∃ tail, tag = '<' :: tail ∧ '<' ∉ tail :=
  IsEndTag.lt_head (by decide) h

theorem silent_closing? {s u : Text} (hs : Text.findFirst closing? s = none) :
    Text.Silent closing? s ('<' :: u) :=
  silent_endTag? (w := "/script".toList) (by decide) hs

theorem text_lt_head {e : Element} (h : IsElement e) : ∃ tail, e.text = '<' :: tail := by
  obtain ⟨tail, htail⟩ := h.opening.lt_head
  exact ⟨tail ++ e.body ++ e.closing, by simp [text, htail]⟩

/-- Elements are recognised by their own characters. -/
theorem here?_eq_some_iff {t rest : Text} {e : Element} :
    here? t = some (e, rest) ↔ t = e.text ++ rest ∧ IsElement e := by
  constructor
  · intro h
    unfold here? at h
    split at h
    · cases h
    · rename_i o r ho
      obtain ⟨rfl, hopening⟩ := (reads_opening? _ _ _).mp ho
      obtain ⟨f, hf, he⟩ := Option.map_eq_some_iff.mp h
      simp only [Prod.mk.injEq] at he
      obtain ⟨rfl, rfl⟩ := he
      obtain ⟨u, rfl, hu, hs⟩ := Text.findFirst_eq_some_iff.mp hf
      obtain ⟨rfl, hclosing⟩ := (reads_closing? _ _ _).mp hu
      -- A closing tag inside the body would have been found before the one that was.
      have hbody := findFirst_eq_none_of_silent (w := "/script".toList) (by decide) hs
      exact ⟨by simp [text], hopening, hbody, hclosing⟩
  · rintro ⟨rfl, he⟩
    have hopen := (reads_opening? (e.text ++ rest) e.opening
      (e.body ++ (e.closing ++ rest))).mpr ⟨by simp [text], he.opening⟩
    obtain ⟨tail, htail, -⟩ := closing_lt_head he.closing
    have hclose := (reads_closing? (e.closing ++ rest) e.closing rest).mpr ⟨rfl, he.closing⟩
    have hs : Text.Silent closing? e.body (e.closing ++ rest) := by
      rw [htail]
      exact silent_closing? he.body
    simp only [here?, hopen, Text.findFirst_append_of_silent hs hclose, Option.map_some]

theorem find?_eq_some_iff {t : Text} {f : Text.Found Element} :
    find? t = some f ↔ t = f.before ++ (f.item.text ++ f.after) ∧ IsElement f.item ∧
      Text.Silent here? f.before (f.item.text ++ f.after) := by
  unfold find?
  rw [Text.findFirst_eq_some_iff]
  constructor
  · rintro ⟨u, rfl, hu, hs⟩
    obtain ⟨rfl, he⟩ := here?_eq_some_iff.mp hu
    exact ⟨rfl, he, hs⟩
  · rintro ⟨ht, he, hs⟩
    exact ⟨_, ht, here?_eq_some_iff.mpr ⟨rfl, he⟩, hs⟩

/-- An element starts where an opening tag stands, provided a closing tag follows. -/
theorem here?_isSome_of_opening {o u : Text} (ho : IsOpening o)
    (hu : (Text.findFirst closing? u).isSome = true) : (here? (o ++ u)).isSome = true := by
  obtain ⟨f, hf⟩ := Option.isSome_iff_exists.mp hu
  have hopen := (reads_opening? (o ++ u) o u).mpr ⟨rfl, ho⟩
  simp [here?, hopen, hf]

/-! ## What the text in front of an element leaves open -/

/-- Whether a complete opening tag of a manifest element lies in a text. -/
def hasOpening (t : Text) : Bool :=
  (Text.findFirst opening? t).isSome

/-- Whether a text is a `script` tag without its end. -/
def unclosedHere (t : Text) : Bool :=
  match Text.afterKeyword scriptKeyword t with
  | none => false
  | some attributes => Text.endsWord attributes && !attributes.contains '>'

/-- Whether a text ends inside a `script` tag. -/
def hasUnclosed : Text → Bool
  | [] => false
  | c :: t => unclosedHere (c :: t) || hasUnclosed t

theorem hasOpening_iff {t : Text} :
    hasOpening t = true ↔ ∃ a o b, t = a ++ (o ++ b) ∧ IsOpening o :=
  reads_opening?.isSome_findFirst_iff

theorem not_isOpening_of_inside {t a o b : Text} (h : hasOpening t = false)
    (ht : t = a ++ (o ++ b)) : ¬ IsOpening o := by
  intro ho
  have inside : hasOpening t = true := hasOpening_iff.mpr ⟨a, o, b, ht, ho⟩
  rw [h] at inside
  cases inside

theorem unclosedHere_iff {t : Text} : unclosedHere t = true ↔ IsUnclosed t := by
  unfold unclosedHere
  constructor
  · intro h
    split at h
    · cases h
    · rename_i attributes ha
      obtain ⟨k, rfl, hk⟩ := Text.afterKeyword_eq_some_iff.mp ha
      simp only [Bool.and_eq_true, Bool.not_eq_true', List.contains_eq_mem,
        decide_eq_false_iff_not] at h
      exact ⟨k, attributes, rfl, hk, h.1, h.2⟩
  · rintro ⟨k, attributes, rfl, hk, hword, hgt⟩
    simp [Text.afterKeyword_append hk, hword, hgt]

theorem hasUnclosed_iff {t : Text} :
    hasUnclosed t = true ↔ ∃ a b, t = a ++ b ∧ IsUnclosed b := by
  induction t with
  | nil =>
      simp only [hasUnclosed, Bool.false_eq_true, false_iff]
      rintro ⟨a, b, hab, hb⟩
      rw [(List.append_eq_nil_iff.mp hab.symm).2, ← unclosedHere_iff] at hb
      cases hb
  | cons c t ih =>
      rw [hasUnclosed, Bool.or_eq_true, unclosedHere_iff, ih]
      constructor
      · rintro (h | ⟨a, b, rfl, hb⟩)
        · exact ⟨[], c :: t, rfl, h⟩
        · exact ⟨c :: a, b, rfl, hb⟩
      · rintro ⟨a, b, hab, hb⟩
        cases a with
        | nil => exact .inl (by rw [hab]; exact hb)
        | cons d a =>
            simp only [List.cons_append, List.cons.injEq] at hab
            exact .inr ⟨a, b, hab.2, hb⟩

/-- An element at a place of `b` opens within `b`, or its opening tag reaches beyond. -/
theorem here?_append_cases {b u rest : Text} {e : Element} (h : here? (b ++ u) = some (e, rest)) :
    (∃ y, b = e.opening ++ y) ∨ ∃ x w, x ≠ [] ∧ e.opening = b ++ x ∧ u = x ++ w := by
  have hcut := (here?_eq_some_iff.mp h).1
  rw [text, List.append_assoc, List.append_assoc] at hcut
  rcases List.append_eq_append_iff.mp hcut with ⟨x, hx, hu⟩ | ⟨y, hy, -⟩
  · cases x with
    | nil => exact .inl ⟨[], by simpa using hx.symm⟩
    | cons c x => exact .inr ⟨c :: x, _, by simp, hx, hu⟩
  · exact .inl ⟨y, hy⟩

/-- No element begins in a text that leaves nothing open, if it ends or markup follows. -/
theorem silent_here? {s u : Text} (hopening : hasOpening s = false)
    (hunclosed : hasUnclosed s = false) (hu : ∀ c v, u = c :: v → c = '<') :
    Text.Silent here? s u := by
  intro a b hab hb
  cases h : here? (b ++ u) with
  | none => rfl
  | some p =>
      have he := (here?_eq_some_iff.mp h).2.opening
      rcases here?_append_cases h with ⟨y, hy⟩ | ⟨x, w, hx, ho, rfl⟩
      · exact absurd he (not_isOpening_of_inside hopening (by rw [hab, hy]))
      · cases x with
        | nil => exact absurd rfl hx
        | cons c x =>
            rw [ho, hu c (x ++ w) rfl] at he
            have leftOpen : hasUnclosed s = true := hasUnclosed_iff.mpr ⟨a, b, hab, he.cut_lt hb⟩
            rw [hunclosed] at leftOpen
            cases leftOpen

theorem isSome_closing?_of_isElement {e : Element} (he : IsElement e) (s rest : Text) :
    (Text.findFirst closing? (s ++ (e.text ++ rest))).isSome = true :=
  reads_closing?.isSome_findFirst_iff.mpr
    ⟨s ++ (e.opening ++ e.body), e.closing, rest, by simp [text], he.closing⟩

theorem hasOpening_of_silent {s u : Text} (hs : Text.Silent here? s u)
    (hu : (Text.findFirst closing? u).isSome = true) : hasOpening s = false := by
  cases h : hasOpening s with
  | false => rfl
  | true =>
      obtain ⟨a, o, b, hab, ho⟩ := hasOpening_iff.mp h
      have hne : o ++ b ≠ [] := by
        obtain ⟨tail, htail⟩ := ho.lt_head
        simp [htail]
      have quiet := hs a (o ++ b) hab hne
      have found := here?_isSome_of_opening ho (u := b ++ u) (by
        simpa using reads_closing?.isSome_findFirst_append hu b [])
      rw [← List.append_assoc, quiet] at found
      cases found

theorem hasUnclosed_of_silent {s blanks rest : Text} {e : Element}
    (hs : Text.Silent here? (s ++ blanks) (e.text ++ rest)) (he : IsElement e)
    (hblanks : ∀ c ∈ blanks, Text.isBlank c = true) : hasUnclosed s = false := by
  cases h : hasUnclosed s with
  | false => rfl
  | true =>
      obtain ⟨a, b, rfl, hb⟩ := hasUnclosed_iff.mp h
      have hne : b ++ blanks ≠ [] := by
        intro hnil
        rw [(List.append_eq_nil_iff.mp hnil).1, ← unclosedHere_iff] at hb
        cases hb
      have quiet := hs a (b ++ blanks) (by simp) hne
      have opened := hb.opening_append hblanks he.opening
      have found := here?_isSome_of_opening opened (u := e.body ++ (e.closing ++ rest))
        (reads_closing?.isSome_findFirst_iff.mpr ⟨e.body, e.closing, rest, rfl, he.closing⟩)
      have hcut : b ++ blanks ++ e.opening ++ (e.body ++ (e.closing ++ rest)) =
          b ++ blanks ++ (e.text ++ rest) := by
        simp [text]
      rw [hcut, quiet] at found
      cases found

/-- The cut at the first element, with the blanks in front of it apart. -/
theorem find?_cut {t : Text} {f : Text.Found Element} (hf : find? t = some f) :
    ∃ blanks, t = Text.trimEnd f.before ++ (blanks ++ (f.item.text ++ f.after)) ∧
      (∀ c ∈ blanks, Text.isBlank c = true) ∧
        Text.Silent here? (Text.trimEnd f.before ++ blanks) (f.item.text ++ f.after) := by
  obtain ⟨ht, -, hs⟩ := find?_eq_some_iff.mp hf
  obtain ⟨blanks, hcut, hblanks⟩ := Text.trimEnd_append_blanks f.before
  refine ⟨blanks, ?_, hblanks, hcut ▸ hs⟩
  rw [← List.append_assoc, ← hcut]
  exact ht

/-- In front of the first element nothing is left open. -/
theorem front_settled {t : Text} {f : Text.Found Element} (hf : find? t = some f) :
    hasOpening (Text.trimEnd f.before) = false ∧ hasUnclosed (Text.trimEnd f.before) = false := by
  have he := (find?_eq_some_iff.mp hf).2.1
  obtain ⟨blanks, -, hblanks, hs⟩ := find?_cut hf
  refine ⟨?_, hasUnclosed_of_silent hs he hblanks⟩
  exact hasOpening_of_silent (Text.silent_append_iff.mp hs).1
    (isSome_closing?_of_isElement he blanks f.after)

theorem find?_eq_none_iff {t : Text} : find? t = none ↔ Text.Silent here? t [] := by
  unfold find?
  rw [Text.findFirst_eq_none_iff]
  exact ⟨fun h => h.1, fun h => ⟨h, rfl⟩⟩

end Element

end PageManifest.Markup
