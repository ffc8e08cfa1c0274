import PageManifest.Proofs.Bounds
import PageManifest.Proofs.Element
import PageManifest.Proofs.WrittenTags

/-! # Recognition of written tags

A script or a link whose attributes are written as usual is recognised by what its
attributes show.  That is what the attribute of the right name says, unless the end
of another name or the inside of a value shows something else.
-/

namespace PageManifest

namespace Markup

theorem WrittenAttribute.not_mem_text (a : WrittenAttribute) {c : Char} (hc : c ∈ ['<', '>']) :
    c ∉ a.text := by
  have hplain : Text.isBlank c = false ∧ Text.isWord c = false ∧ c ∉ ['-', '=', '"'] := by
    simp only [List.mem_cons, List.not_mem_nil, or_false] at hc
    rcases hc with rfl | rfl <;> exact ⟨rfl, rfl, by decide⟩
  intro hmem
  rcases List.mem_append.mp hmem with hgap | hmem
  · have hblank := List.all_eq_true.mp a.gap_blank c hgap
    rw [hplain.1] at hblank
    cases hblank
  · rcases List.mem_append.mp hmem with hname | hmem
    · rcases a.mem_name hname with hword | rfl
      · rw [hplain.2.1] at hword
        cases hword
      · exact hplain.2.2 (by decide)
    · have hvalue : c ∉ a.value := a.not_mem_value (List.mem_cons_of_mem _ hc)
      simp only [List.mem_cons, List.mem_append, List.not_mem_nil, or_false] at hmem
      rcases hmem with rfl | rfl | hmem | rfl
      · exact hplain.2.2 (by decide)
      · exact hplain.2.2 (by decide)
      · exact hvalue hmem
      · exact hplain.2.2 (by decide)

/-- What the attributes of a tag show in front of a text, the first one counting. -/
def shownHref? : List WrittenAttribute → Text → Option Text
  | [], _ => none
  | a :: attributes, behind =>
      (a.shownHref? (attributes.flatMap WrittenAttribute.text ++ behind)).or
        (shownHref? attributes behind)

section Attributes

variable {attributes : List WrittenAttribute} {u : Text}

theorem apart_attributes (hu : Apart u) :
    Apart (attributes.flatMap WrittenAttribute.text ++ u) := by
  cases attributes with
  | nil => exact hu
  | cons a attributes =>
      intro c v hcut
      cases hgap : a.gap with
      | nil => exact absurd hgap a.gap_ne_nil
      | cons d gap =>
          simp only [List.flatMap_cons, WrittenAttribute.text, hgap, List.cons_append,
            List.cons.injEq] at hcut
          exact List.all_eq_true.mp a.gap_blank c (by simp [hgap, hcut.1])

theorem any_typeHere_attributes (hu : ∀ c ∈ u, Text.isBlank c = true) (inWord : Bool) :
    ((Text.wordStarts inWord (attributes.flatMap WrittenAttribute.text ++ u)).any
      Element.typeHere) = true ↔ ∃ a ∈ attributes, a.ShowsType := by
  have hnone : ∀ c ∈ u, Text.isWord c = false := fun c hc => Text.isWord_of_isBlank (hu c hc)
  have hapart : Apart u := fun c v hcut => hu c (by simp [hcut])
  induction attributes generalizing inWord with
  | nil => simp [Text.wordStarts_of_no_word hnone]
  | cons a attributes ih =>
      rw [List.flatMap_cons, List.append_assoc, Text.wordStarts_append, List.any_append,
        Bool.or_eq_true, a.inWordAfter_text, List.any_map]
      simp only [List.mem_cons, exists_eq_or_imp]
      exact or_congr (a.any_typeHere_iff inWord (apart_attributes hapart)) (ih false)

theorem findSome?_attributes (hu : ∀ c ∈ u, Text.isWord c = false) (inWord : Bool) :
    (Text.wordStarts inWord (attributes.flatMap WrittenAttribute.text ++ u)).findSome?
      hrefValue? = shownHref? attributes u := by
  induction attributes generalizing inWord with
  | nil => simp [Text.wordStarts_of_no_word hu, shownHref?]
  | cons a attributes ih =>
      rw [List.flatMap_cons, List.append_assoc, Text.wordStarts_append, List.findSome?_append,
        a.inWordAfter_text, ih, List.findSome?_map, shownHref?]
      exact congrArg (Option.or · _) (a.findSome?_hrefValue? inWord _)

end Attributes

/-! ## Tags -/

/-- The part of an opening tag behind its keyword: attributes, and perhaps blanks. -/
structure WrittenTag where
  attributes : List WrittenAttribute
  trailing : Text
  trailing_blank : trailing.all Text.isBlank = true

namespace WrittenTag

variable (tag : WrittenTag)

def inner : Text :=
  tag.attributes.flatMap WrittenAttribute.text ++ tag.trailing

def text (keyword : Text) : Text :=
  keyword ++ (tag.inner ++ ['>'])

theorem isBlank_trailing : ∀ c ∈ tag.trailing, Text.isBlank c = true :=
  List.all_eq_true.mp tag.trailing_blank

theorem not_mem_inner {c : Char} (hc : c ∈ ['<', '>']) : c ∉ tag.inner := by
  have hblank : Text.isBlank c = false := by
    simp only [List.mem_cons, List.not_mem_nil, or_false] at hc
    rcases hc with rfl | rfl <;> rfl
  have htrailing := Text.not_mem_of_all_blank tag.isBlank_trailing hblank
  simp only [inner, List.mem_append, List.mem_flatMap, not_or, not_exists, not_and]
  exact ⟨fun a _ => a.not_mem_text hc, htrailing⟩

theorem endsWord_inner : Text.endsWord tag.inner = true := by
  have hapart : Apart tag.inner :=
    apart_attributes fun c v hcut => tag.isBlank_trailing c (by simp [hcut])
  cases h : tag.inner with
  | nil => rfl
  | cons c v => simp [Text.endsWord, Text.isWord_of_isBlank (hapart c v h)]

theorem hasType_inner : Element.hasType true tag.inner = true ↔
    ∃ a ∈ tag.attributes, a.ShowsType := by
  rw [hasType_eq]
  exact any_typeHere_attributes tag.isBlank_trailing true

end WrittenTag

/-! ## Scripts -/

/-- A script with an opening tag as it is usually written. -/
def WrittenTag.element (tag : WrittenTag) (body : Text) : Element :=
  ⟨tag.text scriptKeyword, body, "</script>".toList⟩

section Scripts

variable {tag : WrittenTag} {body : Text}

theorem isOpening_text_iff :
    IsOpening (tag.text scriptKeyword) ↔ ∃ a ∈ tag.attributes, a.ShowsType := by
  rw [← tag.hasType_inner]
  constructor
  · rintro ⟨k, attributes, hcut, hk, -, -, htype⟩
    have hlen : scriptKeyword.length = k.length := by rw [← hk, List.length_map]
    have hall : scriptKeyword ++ (tag.inner ++ ['>']) = k ++ (attributes ++ ['>']) := by
      rw [← List.append_assoc k]
      exact hcut
    rw [List.append_cancel_right (List.append_inj hall hlen).2]
    exact htype
  · intro htype
    exact ⟨scriptKeyword, tag.inner, by simp [WrittenTag.text], rfl,
      tag.endsWord_inner, tag.not_mem_inner (by simp), htype⟩

theorem isElement_of_showsType (hbody : '<' ∉ body) (h : ∃ a ∈ tag.attributes, a.ShowsType) :
    IsElement (tag.element body) := by
  refine ⟨isOpening_text_iff.mpr h, ?_, "</script".toList, [], rfl, rfl, by simp⟩
  rw [← Option.not_isSome_iff_eq_none, Element.reads_closing?.isSome_findFirst_iff]
  rintro ⟨a, x, b, hcut, hx⟩
  obtain ⟨tail, rfl, -⟩ := Element.closing_lt_head hx
  change body = _ at hcut
  exact hbody (by simp [hcut])

theorem find?_element_of_showsType (hbody : '<' ∉ body)
    (h : ∃ a ∈ tag.attributes, a.ShowsType) :
    Element.find? (tag.element body).text = some ⟨[], tag.element body, []⟩ :=
  Element.find?_eq_some_iff.mpr
    ⟨by simp, isElement_of_showsType hbody h, Text.silent_nil _ _⟩

theorem count_lt_element (tag : WrittenTag) (hbody : '<' ∉ body) :
    (tag.element body).text.count '<' = 2 := by
  have hinner : tag.inner.count '<' = 0 :=
    List.count_eq_zero_of_not_mem (tag.not_mem_inner (by simp))
  have hkeyword : scriptKeyword.count '<' = 1 := by decide
  simp [Element.text, WrittenTag.element, WrittenTag.text, hinner, hkeyword,
    List.count_eq_zero_of_not_mem hbody]

/-- There are two places in a script where a tag can begin, and an element takes both. -/
theorem before_of_find?_element (hbody : '<' ∉ body) {f : Text.Found Element}
    (hf : Element.find? (tag.element body).text = some f) : f.before = [] := by
  obtain ⟨hcut, helement, -⟩ := Element.find?_eq_some_iff.mp hf
  obtain ⟨tail, htail⟩ := helement.opening.lt_head
  obtain ⟨tail', htail', -⟩ := Element.closing_lt_head helement.closing
  have hfront : f.before.count '<' = 0 := by
    have htwo := count_lt_element tag hbody
    rw [hcut, Element.text, htail, htail'] at htwo
    simp only [List.count_append, List.count_cons_self] at htwo
    omega
  cases hb : f.before with
  | nil => rfl
  | cons c before =>
      have hhead : c = '<' := by
        rw [hb] at hcut
        exact (List.cons.inj hcut).1.symm
      rw [hb, hhead, List.count_cons_self] at hfront
      cases hfront

theorem showsType_of_find?_element (hbody : '<' ∉ body)
    (h : (Element.find? (tag.element body).text).isSome = true) :
    ∃ a ∈ tag.attributes, a.ShowsType := by
  obtain ⟨f, hf⟩ := Option.isSome_iff_exists.mp h
  obtain ⟨hcut, helement, -⟩ := Element.find?_eq_some_iff.mp hf
  obtain ⟨inner, hinner, hgt⟩ := helement.opening.gt_last
  have hends : scriptKeyword ++ tag.inner ++ '>' :: (body ++ "</script>".toList) =
      inner ++ '>' :: (f.item.body ++ f.item.closing ++ f.after) := by
    rw [before_of_find?_element hbody hf] at hcut
    simpa [Element.text, WrittenTag.element, WrittenTag.text, hinner] using hcut
  have hgt' : '>' ∉ scriptKeyword ++ tag.inner := by
    rw [List.mem_append, not_or]
    exact ⟨by decide, tag.not_mem_inner (by simp)⟩
  have hopening : f.item.opening = tag.text scriptKeyword := by
    rw [hinner, ← (Text.append_cons_inj_of_not_mem hgt' hgt hends).1, WrittenTag.text,
      List.append_assoc]
  exact isOpening_text_iff.mp (hopening ▸ helement.opening)

end Scripts

/-! ## Links -/

namespace WrittenTag

variable (tag : WrittenTag)

/-- The value of the attribute that is named `href`, of the first where there are several. -/
def declaredHref? : Option Text :=
  (tag.attributes.find? (·.isNamed hrefKeyword)).map WrittenAttribute.value

/-- The value that a reader takes for that of the `href` attribute. -/
def shownHref? : Option Text :=
  Markup.shownHref? tag.attributes (tag.trailing ++ ['>'])

theorem value_href? : (href? (tag.text linkKeyword)).map Attribute.value = tag.shownHref? := by
  have hkeyword : Text.wordStarts false linkKeyword = ["link".toList] := rfl
  have hother : hrefValue? ("link".toList ++ (tag.inner ++ ['>'])) = none := rfl
  have hbehind : ∀ c ∈ tag.trailing ++ ['>'], Text.isWord c = false := by
    intro c hc
    rcases List.mem_append.mp hc with htrailing | hend
    · exact Text.isWord_of_isBlank (tag.isBlank_trailing c htrailing)
    · rw [List.mem_singleton.mp hend]
      rfl
  have hfirst : ["link".toList ++ (tag.inner ++ ['>'])].findSome? hrefValue? = none := by
    rw [List.findSome?_cons, hother]
    rfl
  rw [href?, value_hrefFrom, text, Text.wordStarts_append, hkeyword, List.findSome?_append,
    List.map_singleton, hfirst, Option.none_or, inner, List.append_assoc]
  exact findSome?_attributes hbehind _

theorem shownHref?_of_plain (h : ∀ a ∈ tag.attributes, a.Plain) :
    tag.shownHref? = tag.declaredHref? := by
  rw [shownHref?, declaredHref?]
  generalize tag.attributes = attributes at h ⊢
  induction attributes with
  | nil => rfl
  | cons a attributes ih =>
      have hfirst := WrittenAttribute.shownHref?_of_plain (h a List.mem_cons_self)
      have hrest := ih fun b hb => h b (List.mem_cons_of_mem a hb)
      rw [Markup.shownHref?, hfirst, hrest, List.find?_cons]
      cases a.isNamed hrefKeyword <;> rfl

end WrittenTag

/-! ## Targets -/

/-- The target that an attribute value stands for; a blank one stands for none. -/
def readTarget? (value : Option Text) : Option Text :=
  value.bind fun v =>
    if (Text.trim v).isEmpty then none else (unescape (Text.trim v)).toOption

theorem readTarget?_eq_some_iff {value : Option Text} {target : Text} :
    readTarget? value = some target ↔
      ∃ v, value = some v ∧ Text.trim v ≠ [] ∧ unescape (Text.trim v) = .ok target := by
  rw [readTarget?, Option.bind_eq_some_iff]
  refine exists_congr fun v => and_congr_right fun _ => ?_
  by_cases hblank : Text.trim v = []
  · simp [hblank]
  · simp only [List.isEmpty_iff, hblank, if_false, ne_eq, not_false_eq_true, true_and]
    constructor
    · exact eq_ok_of_toOption
    · intro hread
      rw [hread]
      rfl

end Markup

namespace ReferenceScan

open Markup

variable {k : Charset.Codec} {t : Text} {f : Text.Found Text} {tag : WrittenTag}

/-- What is reported of a written link is the target that its attributes show. -/
theorem exists_ofText_iff (hk : k.Encodes t) (hf : referenceIn? t = some f)
    (hitem : f.item = tag.text linkKeyword) (target : Text) :
    (∃ marker, ofText (.codec k) t = .ok (some ⟨target, marker⟩)) ↔
      readTarget? tag.shownHref? = some target := by
  have hvalue : (href? f.item).map Attribute.value = tag.shownHref? := by
    rw [hitem, tag.value_href?]
  rw [readTarget?_eq_some_iff]
  constructor
  · rintro ⟨marker, h⟩
    obtain ⟨f', href, -, hf', hhref, hblank, hread, -⟩ := ofText_eq_some hk h
    obtain rfl := Option.some.inj (hf.symm.trans hf')
    rw [hhref, Option.map_some] at hvalue
    exact ⟨href.value, hvalue.symm, hblank, hread⟩
  · rintro ⟨v, hshown, hblank, hread⟩
    rw [hshown] at hvalue
    obtain ⟨href, hhref, rfl⟩ := Option.map_eq_some_iff.mp hvalue
    exact exists_ofText_eq_some hk hf hhref hblank hread

/-- A scan reports the declared target of a link, and nothing where there is none. -/
def FollowsDeclared (k : Charset.Codec) (t : Text) (tag : WrittenTag) : Prop :=
  ((∃ scan, ofText (.codec k) t = .ok (some scan)) ↔
    ∃ v, tag.declaredHref? = some v ∧ Text.trim v ≠ []) ∧
  ∀ scan, ofText (.codec k) t = .ok (some scan) →
    ∃ v, tag.declaredHref? = some v ∧ unescape (Text.trim v) = .ok scan.target

/--
The declared target is reported exactly when what the attributes show reads as what
is declared, and what is declared can be read.
-/
theorem followsDeclared_iff (hk : k.Encodes t) (hf : referenceIn? t = some f)
    (hitem : f.item = tag.text linkKeyword) :
    FollowsDeclared k t tag ↔
      readTarget? tag.shownHref? = readTarget? tag.declaredHref? ∧
      ∀ v, tag.declaredHref? = some v → Text.trim v ≠ [] →
        ∃ target, unescape (Text.trim v) = .ok target := by
  -- What is shown is what is declared where each target is reported if it is the declared one.
  have hsame : readTarget? tag.shownHref? = readTarget? tag.declaredHref? ↔
      ∀ target, (∃ marker, ofText (.codec k) t = .ok (some ⟨target, marker⟩)) ↔
        readTarget? tag.declaredHref? = some target := by
    simp only [exists_ofText_iff hk hf hitem]
    exact Option.ext_iff
  rw [hsame]
  constructor
  · rintro ⟨hiff, hread⟩
    refine ⟨fun target => ⟨?_, ?_⟩, ?_⟩
    · rintro ⟨marker, hscan⟩
      obtain ⟨v, hv, hblank⟩ := hiff.mp ⟨_, hscan⟩
      obtain ⟨w, hw, htarget⟩ := hread _ hscan
      obtain rfl := Option.some.inj (hv.symm.trans hw)
      exact readTarget?_eq_some_iff.mpr ⟨v, hv, hblank, htarget⟩
    · intro hdeclared
      obtain ⟨v, hv, hblank, htarget⟩ := readTarget?_eq_some_iff.mp hdeclared
      obtain ⟨scan, hscan⟩ := hiff.mpr ⟨v, hv, hblank⟩
      obtain ⟨w, hw, hread'⟩ := hread scan hscan
      obtain rfl := Option.some.inj (hv.symm.trans hw)
      obtain rfl := Except.ok.inj (htarget.symm.trans hread')
      exact ⟨scan.marker, hscan⟩
    · intro v hv hblank
      obtain ⟨scan, hscan⟩ := hiff.mpr ⟨v, hv, hblank⟩
      obtain ⟨w, hw, hread'⟩ := hread scan hscan
      obtain rfl := Option.some.inj (hv.symm.trans hw)
      exact ⟨scan.target, hread'⟩
  · rintro ⟨hreport, hreadable⟩
    refine ⟨⟨?_, ?_⟩, ?_⟩
    · rintro ⟨scan, hscan⟩
      obtain ⟨v, hv, hblank, -⟩ :=
        readTarget?_eq_some_iff.mp ((hreport scan.target).mp ⟨scan.marker, hscan⟩)
      exact ⟨v, hv, hblank⟩
    · rintro ⟨v, hv, hblank⟩
      obtain ⟨target, htarget⟩ := hreadable v hv hblank
      obtain ⟨marker, hscan⟩ :=
        (hreport target).mpr (readTarget?_eq_some_iff.mpr ⟨v, hv, hblank, htarget⟩)
      exact ⟨⟨target, marker⟩, hscan⟩
    · intro scan hscan
      obtain ⟨v, hv, -, htarget⟩ :=
        readTarget?_eq_some_iff.mp ((hreport scan.target).mp ⟨scan.marker, hscan⟩)
      exact ⟨v, hv, htarget⟩

end ReferenceScan

namespace Markup

/--
A script is recognised by what any of its attributes shows, and a link leads to what
the first of its attributes shows.  So both go by the attributes of the right names
exactly where nothing else is shown: no type where none is declared, and no target that
reads otherwise than the declared one, which has to be readable.  Plain attributes
show no other target.
-/
theorem recognized_by_attributes_iff (tag : WrittenTag) :
    (∀ body : Text, '<' ∉ body →
      ((Element.find? (tag.element body).text).isSome = true ↔
        ∃ a ∈ tag.attributes, a.ShowsType) ∧
      (((Element.find? (tag.element body).text).isSome = true ↔
          ∃ a ∈ tag.attributes, a.DeclaresType) ↔
        ((∃ a ∈ tag.attributes, a.ShowsType) → ∃ a ∈ tag.attributes, a.DeclaresType))) ∧
    (∀ (k : Charset.Codec) (t : Text) (f : Text.Found Text),
      k.Encodes t → referenceIn? t = some f → f.item = tag.text linkKeyword →
      (ReferenceScan.FollowsDeclared k t tag ↔
        readTarget? tag.shownHref? = readTarget? tag.declaredHref? ∧
        ∀ v, tag.declaredHref? = some v → Text.trim v ≠ [] →
          ∃ target, unescape (Text.trim v) = .ok target)) ∧
    ((∀ a ∈ tag.attributes, a.Plain) → tag.shownHref? = tag.declaredHref?) := by
  refine ⟨?_, ?_, tag.shownHref?_of_plain⟩
  · intro body hbody
    have hshown : (Element.find? (tag.element body).text).isSome = true ↔
        ∃ a ∈ tag.attributes, a.ShowsType := by
      refine ⟨showsType_of_find?_element hbody, fun h => ?_⟩
      rw [find?_element_of_showsType hbody h]
      rfl
    refine ⟨hshown, ?_⟩
    rw [hshown]
    constructor
    · exact fun h => h.mp
    · intro h
      refine ⟨h, ?_⟩
      rintro ⟨a, ha, hdeclares⟩
      exact ⟨a, ha, WrittenAttribute.showsType_of_declaresType hdeclares⟩
  · intro k t f hk hf hitem
    exact ReferenceScan.followsDeclared_iff hk hf hitem

/-- A script whose type is declared in capitals, behind another attribute. -/
def capitalType : WrittenTag :=
  ⟨[.spaced "class".toList "it's".toList rfl rfl,
    .spaced "TYPE".toList "Application/C2PA-Manifest".toList rfl rfl], ['\n'], rfl⟩

/-- A link whose target is escaped and stands between blanks. -/
def accentedHref : WrittenTag :=
  ⟨[.spaced "rel".toList "c2pa-manifest".toList rfl rfl,
    .spaced "HREF".toList " \u00E9&amp;.c2pa ".toList rfl rfl], [], rfl⟩

-- The script is recognised, and the link is followed where its companion is.
theorem recognized_by_attributes_accented :
    (Element.find? (capitalType.element "QQ==".toList).text).isSome = true ∧
    ReferenceScan.FollowsDeclared .utf16 ("<p>".toList ++ accentedHref.text linkKeyword)
      accentedHref := by
  obtain ⟨hscript, -⟩ := recognized_by_attributes_iff capitalType
  obtain ⟨-, hlink, -⟩ := recognized_by_attributes_iff accentedHref
  refine ⟨?_, ?_⟩
  · obtain ⟨hshown, -⟩ := hscript "QQ==".toList (by decide)
    refine hshown.mpr ⟨_, List.mem_cons_of_mem _ List.mem_cons_self, ?_⟩
    exact WrittenAttribute.showsType_of_declaresType ⟨rfl, rfl⟩
  · have hlinked : (referenceIn? ("<p>".toList ++ accentedHref.text linkKeyword)).any
        (fun f => decide (f.item = accentedHref.text linkKeyword)) = true := by decide +kernel
    have hdeclared : accentedHref.declaredHref? = some " \u00E9&amp;.c2pa ".toList := rfl
    have hshown : accentedHref.shownHref? = accentedHref.declaredHref? := rfl
    obtain ⟨f, hf, hitem⟩ := (Option.any_eq_true _ _).mp hlinked
    refine (hlink .utf16 _ f (fun _ _ => rfl) hf (of_decide_eq_true hitem)).mpr ⟨by rw [hshown], ?_⟩
    intro v hv _
    obtain rfl := Option.some.inj (hdeclared.symm.trans hv)
    exact ⟨"\u00E9&.c2pa".toList, eq_ok_of_toOption (by decide +kernel)⟩

/-- A script with no attribute named `type`. -/
def dataType : WrittenTag :=
  ⟨[.spaced "data-type".toList "application/c2pa-manifest".toList rfl rfl], [], rfl⟩

/-- A link with a target of its own and a look-alike in front of it. -/
def dataHref : WrittenTag :=
  ⟨[.spaced "rel".toList "c2pa-manifest".toList rfl rfl,
    .spaced "data-href".toList "other.c2pa".toList rfl rfl,
    .spaced "href".toList "page.c2pa".toList rfl rfl], [], rfl⟩

theorem recognized_by_lookAlikes :
    (Element.find? (dataType.element "QQ==".toList).text).isSome = true ∧
    (∀ a ∈ dataType.attributes, ¬ a.DeclaresType) ∧
    (∃ f, referenceIn? (dataHref.text linkKeyword) = some f ∧
      f.item = dataHref.text linkKeyword) ∧
    dataHref.declaredHref? = some "page.c2pa".toList ∧
    ∃ marker, ReferenceScan.ofText (.codec .utf8) (dataHref.text linkKeyword) =
      .ok (some ⟨"other.c2pa".toList, marker⟩) := by
  have hlinked : (referenceIn? (dataHref.text linkKeyword)).any
      (fun f => decide (f.item = dataHref.text linkKeyword)) = true := by decide +kernel
  obtain ⟨f, hf, hitem⟩ := (Option.any_eq_true _ _).mp hlinked
  refine ⟨by decide +kernel, ?_, ⟨f, hf, of_decide_eq_true hitem⟩, rfl, ?_⟩
  · intro a ha hdeclares
    rw [List.mem_singleton.mp ha] at hdeclares
    exact absurd hdeclares.1 (by decide)
  · exact ⟨⟨.linkTag, 37, 10⟩, eq_ok_of_toOption (by decide +kernel)⟩

end Markup

end PageManifest
