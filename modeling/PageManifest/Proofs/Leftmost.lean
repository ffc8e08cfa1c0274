import PageManifest.Proofs.Patterns

/-! # Where the first element stands

The grammar of an element by positions in the text: its keyword, the edge of a word, the
first `>`, an attribute in front of it and a closing tag behind it.  A search returns the
element at the least position where one starts.
-/

namespace PageManifest

namespace Text

/-- The text `x` stands in `t` behind its first `i` characters. -/
def Stands (t : Text) (i : Nat) (x : Text) : Prop :=
  ∃ a b, t = a ++ (x ++ b) ∧ a.length = i

/-- A word begins or ends in `t` behind its first `i` characters. -/
def IsEdge (t : Text) (i : Nat) : Prop :=
  ¬ ((∃ j c, j + 1 = i ∧ t[j]? = some c ∧ isWord c = true) ↔
    ∃ c, t[i]? = some c ∧ isWord c = true)

/-- Of the texts that are `tag`, `x` at `i` is the first one in `t` from `n` on. -/
structure IsFirst (tag : Text → Prop) (t : Text) (n i : Nat) (x : Text) : Prop where
  le : n ≤ i
  stands : Stands t i x
  holds : tag x
  least : ∀ j y, n ≤ j → Stands t j y → tag y → i ≤ j

/-- Of two cuts of a text, the later one leaves the earlier one in front of it. -/
theorem exists_of_append_eq_append {a u b v : Text} (h : a ++ u = b ++ v)
    (hle : a.length ≤ b.length) : ∃ x, b = a ++ x ∧ u = x ++ v := by
  rcases List.append_eq_append_iff.mp h with ⟨x, hx, hu⟩ | ⟨x, hx, hv⟩
  · exact ⟨x, hx, hu⟩
  · have hnil : x = [] := by
      rw [hx, List.length_append] at hle
      exact List.eq_nil_of_length_eq_zero (by omega)
    subst hnil
    exact ⟨[], by simpa using hx.symm, by simpa using hv.symm⟩

/-- A part without a character ends in front of the first one. -/
theorem length_le_of_not_mem {sep : Char} {k b x v : Text} (hk : sep ∉ k)
    (h : k ++ b = x ++ sep :: v) : k.length ≤ x.length := by
  apply Nat.le_of_not_lt
  intro hlt
  obtain ⟨y, rfl, hy⟩ := exists_of_append_eq_append h.symm (Nat.le_of_lt hlt)
  cases y with
  | nil => simp at hlt
  | cons d y =>
      obtain ⟨rfl, -⟩ := List.cons.inj hy
      exact hk (by simp)

theorem stands_append (a b x v : Text) :
    Stands (a ++ (b ++ (x ++ v))) (a.length + b.length) x :=
  ⟨a ++ b, v, by simp, List.length_append⟩

theorem exists_of_stands_append {a u x : Text} {i : Nat} (hi : a.length ≤ i)
    (h : Stands (a ++ u) i x) : ∃ b v, u = b ++ (x ++ v) ∧ i = a.length + b.length := by
  obtain ⟨b, v, hcut, rfl⟩ := h
  obtain ⟨b, rfl, rfl⟩ := exists_of_append_eq_append hcut hi
  exact ⟨b, v, rfl, List.length_append⟩

/-- A tag is the first one if none begins in the part of the text that it leaves in front. -/
theorem isFirst_append (tag : Text → Prop) (a : Text) {b x v : Text} (hx : tag x)
    (hb : ∀ y z p w, b = y ++ z → z ≠ [] → z ++ (x ++ v) = p ++ w → ¬ tag p) :
    IsFirst tag (a ++ (b ++ (x ++ v))) a.length (a.length + b.length) x := by
  refine ⟨Nat.le_add_right .., stands_append a b x v, hx, ?_⟩
  intro j p hj hstands hp
  obtain ⟨y, w, hcut, rfl⟩ := exists_of_stands_append hj hstands
  apply Nat.add_le_add_left
  apply Nat.le_of_not_lt
  intro hlt
  obtain ⟨z, rfl, hz⟩ := exists_of_append_eq_append hcut.symm (Nat.le_of_lt hlt)
  have hne : z ≠ [] := by
    rintro rfl
    simp at hlt
  exact hb y z p w rfl hne hz.symm hp

/-- A word is under way behind a text if the text ends with a part of a word. -/
theorem inWordAfter_iff {a : Text} : inWordAfter false a = true ↔
    ∃ j c, j + 1 = a.length ∧ a[j]? = some c ∧ isWord c = true := by
  rcases List.eq_nil_or_concat a with rfl | ⟨front, c, rfl⟩
  · simp [inWordAfter]
  · rw [List.concat_eq_append, inWordAfter_concat]
    simp

theorem endsWord_eq_false_iff {u : Text} :
    endsWord u = false ↔ ∃ c, u[0]? = some c ∧ isWord c = true := by
  cases u <;> simp [endsWord]

theorem isEdge_append_iff {a u : Text} :
    IsEdge (a ++ u) a.length ↔ inWordAfter false a = endsWord u := by
  have hbefore : (∃ j c, j + 1 = a.length ∧ (a ++ u)[j]? = some c ∧ isWord c = true) ↔
      inWordAfter false a = true := by
    rw [inWordAfter_iff]
    refine exists_congr fun j => exists_congr fun c => and_congr_right fun hj => ?_
    rw [List.getElem?_append_left (by omega)]
  have hafter : (∃ c, (a ++ u)[a.length]? = some c ∧ isWord c = true) ↔ endsWord u = false := by
    rw [endsWord_eq_false_iff, List.getElem?_append_right (Nat.le_refl _), Nat.sub_self]
  rw [IsEdge, hbefore, hafter]
  cases inWordAfter false a <;> cases endsWord u <;> decide

/-- A search for tags finds the first one. -/
theorem Reads.isFirst {read : Text → Option (Text × Text)} {tag : Text → Prop}
    (hr : Reads read tag) {a u : Text} {f : Found Text} (hf : findFirst read u = some f) :
    IsFirst tag (a ++ u) a.length (a.length + f.before.length) f.item := by
  obtain ⟨v, rfl, hv, hs⟩ := findFirst_eq_some_iff.mp hf
  obtain ⟨rfl, htag⟩ := (hr _ _ _).mp hv
  refine isFirst_append tag a htag ?_
  intro y z p w hcut hz hp htag'
  have quiet := hs y z hcut hz
  rw [(hr _ p w).mpr ⟨hp, htag'⟩] at quiet
  cases quiet

/-- Where a tag stands from `n` on, a search finds one. -/
theorem Reads.isSome_findFirst_iff_stands {read : Text → Option (Text × Text)}
    {tag : Text → Prop} (hr : Reads read tag) {a u : Text} :
    (findFirst read u).isSome = true ↔ ∃ i x, a.length ≤ i ∧ Stands (a ++ u) i x ∧ tag x := by
  rw [hr.isSome_findFirst_iff]
  constructor
  · rintro ⟨b, x, v, rfl, hx⟩
    exact ⟨a.length + b.length, x, Nat.le_add_right .., stands_append a b x v, hx⟩
  · rintro ⟨i, x, hi, hstands, hx⟩
    obtain ⟨b, v, rfl, -⟩ := exists_of_stands_append hi hstands
    exact ⟨b, x, v, rfl, hx⟩

/-- The first of a character is the end of a part without it. -/
theorem isFirst_char_iff {sep : Char} {a u : Text} {i : Nat} :
    IsFirst (· = [sep]) (a ++ u) a.length i [sep] ↔
      ∃ x v, u = x ++ sep :: v ∧ sep ∉ x ∧ i = a.length + x.length := by
  constructor
  · rintro ⟨hle, hstands, -, hleast⟩
    obtain ⟨x, v, rfl, rfl⟩ := exists_of_stands_append hle hstands
    refine ⟨x, v, rfl, ?_, rfl⟩
    intro hmem
    obtain ⟨y, z, rfl⟩ := List.append_of_mem hmem
    have hearlier := hleast (a.length + y.length) [sep] (Nat.le_add_right ..)
      (by simpa using stands_append a y [sep] (z ++ sep :: v)) rfl
    rw [List.length_append, List.length_cons] at hearlier
    omega
  · rintro ⟨x, v, rfl, hx, rfl⟩
    refine isFirst_append (· = [sep]) a rfl ?_
    rintro y z _ w rfl hz hp rfl
    cases z with
    | nil => exact hz rfl
    | cons d z =>
        obtain ⟨rfl, -⟩ := List.cons.inj hp
        exact hx (by simp)

end Text

namespace Markup

/-- A manifest element opens at position `s` of a text, and its tag ends at `g`. -/
structure Opens (t : Text) (s g : Nat) : Prop where
  keyword : ∃ k, Text.Stands t s k ∧ k.map Text.fold = scriptKeyword
  edge : Text.IsEdge t (s + scriptKeyword.length)
  gt : Text.IsFirst (· = ['>']) t s g ['>']
  typed : ∃ i a, s + scriptKeyword.length ≤ i ∧ i + a.length ≤ g ∧ Text.IsEdge t i ∧
    Text.Stands t i a ∧ IsTypeAttribute a

/-- A manifest element starts at position `s` of a text: behind its opening tag some tag closes. -/
structure Starts (t : Text) (s g : Nat) : Prop extends Opens t s g where
  closes : ∃ c tag, g + 1 ≤ c ∧ Text.Stands t c tag ∧ IsEndTag "</script".toList tag

theorem length_of_script {k : Text} (hk : k.map Text.fold = scriptKeyword) :
    k.length = scriptKeyword.length := by
  rw [← hk, List.length_map]

section Attributes

variable {a k z v : Text}

/-- Behind the keyword, an edge is the end of the keyword's word. -/
theorem isEdge_script_iff (hk : k.map Text.fold = scriptKeyword) :
    Text.IsEdge (a ++ k ++ (z ++ '>' :: v)) (a ++ k).length ↔ Text.endsWord z = true := by
  rw [Text.isEdge_append_iff, Text.inWordAfter_append, inWordAfter_script hk, endsWord_append_gt]
  exact eq_comm

/-- An attribute within the tag is one that the walk over the attributes finds. -/
theorem typed_iff (hk : k.map Text.fold = scriptKeyword) :
    (∃ i b, (a ++ k).length ≤ i ∧ i + b.length ≤ (a ++ k).length + z.length ∧
      Text.IsEdge (a ++ k ++ (z ++ '>' :: v)) i ∧
      Text.Stands (a ++ k ++ (z ++ '>' :: v)) i b ∧ IsTypeAttribute b) ↔
    Element.hasType true z = true := by
  have hedge : ∀ {front b : Text} (rest : Text), IsTypeAttribute b →
      (Text.IsEdge (a ++ k ++ front ++ (b ++ rest)) (a ++ k ++ front).length ↔
        Text.inWordAfter true front = false) := by
    intro front b rest hb
    rw [Text.isEdge_append_iff, Text.inWordAfter_append, Text.inWordAfter_append,
      inWordAfter_script hk, hb.endsWord]
  rw [hasType_iff]
  constructor
  · rintro ⟨i, b, hi, hle, hb, hstands, hattribute⟩
    obtain ⟨front, w, hcut, rfl⟩ := Text.exists_of_stands_append hi hstands
    have hwithin : (front ++ b).length ≤ z.length := by
      rw [List.length_append]
      omega
    rw [← List.append_assoc] at hcut
    obtain ⟨rest, rfl, -⟩ := Text.exists_of_append_eq_append hcut.symm hwithin
    refine ⟨front, b, rest, List.append_assoc .., ?_, hattribute⟩
    rw [← List.length_append] at hb
    refine (hedge (rest ++ '>' :: v) hattribute).mp ?_
    simpa using hb
  · rintro ⟨front, b, rest, rfl, hword, hattribute⟩
    refine ⟨(a ++ k ++ front).length, b, by simp, by simp; omega, ?_, ?_, hattribute⟩
    · have here := (hedge (rest ++ '>' :: v) hattribute).mpr hword
      simpa using here
    · exact ⟨a ++ k ++ front, rest ++ '>' :: v, by simp, rfl⟩

/-- Between the keyword and the first `>` stand the attributes. -/
theorem opens_append_iff (hk : k.map Text.fold = scriptKeyword) (hz : '>' ∉ z) :
    Opens (a ++ k ++ (z ++ '>' :: v)) a.length ((a ++ k).length + z.length) ↔
      Text.endsWord z = true ∧ Element.hasType true z = true := by
  have hlen : a.length + scriptKeyword.length = (a ++ k).length := by
    rw [List.length_append, length_of_script hk]
  constructor
  · rintro ⟨-, hedge, -, htyped⟩
    rw [hlen] at hedge htyped
    exact ⟨(isEdge_script_iff hk).mp hedge, (typed_iff hk).mp htyped⟩
  · rintro ⟨hends, htype⟩
    refine ⟨⟨k, ⟨a, z ++ '>' :: v, by simp, rfl⟩, hk⟩, ?_, ?_, ?_⟩
    · rw [hlen]
      exact (isEdge_script_iff hk).mpr hends
    · rw [List.append_assoc]
      refine Text.isFirst_char_iff.mpr ⟨k ++ z, v, by simp, ?_, by simp; omega⟩
      rw [List.mem_append, not_or]
      exact ⟨gt_not_mem_of_spelled hk, hz⟩
    · rw [hlen]
      exact (typed_iff hk).mpr htype

end Attributes

/-- An element opens where an opening tag stands, and with no other end. -/
theorem opens_iff {t : Text} {s g : Nat} : Opens t s g ↔
    ∃ a o u, t = a ++ (o ++ u) ∧ a.length = s ∧ g + 1 = (a ++ o).length ∧ IsOpening o := by
  constructor
  · intro h
    obtain ⟨k, ⟨a, b, rfl, rfl⟩, hk⟩ := h.keyword
    obtain ⟨x, v, hcut, hx, rfl⟩ := Text.isFirst_char_iff.mp h.gt
    have hle := Text.length_le_of_not_mem (gt_not_mem_of_spelled hk) hcut
    obtain ⟨z, rfl, rfl⟩ := Text.exists_of_append_eq_append hcut hle
    have hz : '>' ∉ z := fun hmem => hx (List.mem_append_right k hmem)
    rw [← List.append_assoc, List.length_append, ← Nat.add_assoc, ← List.length_append] at h
    obtain ⟨hends, htype⟩ := (opens_append_iff hk hz).mp h
    exact ⟨a, k ++ z ++ ['>'], v, by simp, rfl, by simp; omega, k, z, rfl, hk, hends, hz, htype⟩
  · rintro ⟨a, _, u, rfl, rfl, hg, k, z, rfl, hk, hends, hz, htype⟩
    have h := (opens_append_iff (a := a) (v := u) hk hz).mpr ⟨hends, htype⟩
    have hend : g = (a ++ k).length + z.length := by
      simp only [List.length_append, List.length_singleton] at hg ⊢
      omega
    rw [hend]
    simpa using h

/-- An element starts where an opening tag stands and some tag closes behind it. -/
theorem starts_iff {t : Text} {s g : Nat} : Starts t s g ↔
    ∃ a o u, t = a ++ (o ++ u) ∧ a.length = s ∧ g + 1 = (a ++ o).length ∧ IsOpening o ∧
      (Text.findFirst Element.closing? u).isSome = true := by
  constructor
  · rintro ⟨hopens, hcloses⟩
    obtain ⟨a, o, u, rfl, rfl, hg, ho⟩ := opens_iff.mp hopens
    rw [hg, ← List.append_assoc] at hcloses
    exact ⟨a, o, u, rfl, rfl, hg, ho,
      Element.reads_closing?.isSome_findFirst_iff_stands.mpr hcloses⟩
  · rintro ⟨a, o, u, rfl, rfl, hg, ho, hu⟩
    refine ⟨opens_iff.mpr ⟨a, o, u, rfl, rfl, hg, ho⟩, ?_⟩
    rw [hg, ← List.append_assoc]
    exact Element.reads_closing?.isSome_findFirst_iff_stands.mp hu

namespace Element

/-- The readings of the pattern of an element at position `s` of a text. -/
def readingsAt (t : Text) (s : Nat) : List (Element × Text) :=
  readings (Text.inWordAfter false (t.take s)) (t.drop s)

theorem exists_starts_iff {t : Text} {s : Nat} :
    (∃ g, Starts t s g) ↔ ∃ a u, t = a ++ u ∧ a.length = s ∧ (here? u).isSome = true := by
  constructor
  · rintro ⟨g, h⟩
    obtain ⟨a, o, u, rfl, rfl, -, ho, hu⟩ := starts_iff.mp h
    exact ⟨a, o ++ u, rfl, rfl, here?_isSome_of_opening ho hu⟩
  · rintro ⟨a, u, rfl, rfl, hu⟩
    obtain ⟨⟨e, rest⟩, hhere⟩ := Option.isSome_iff_exists.mp hu
    obtain ⟨rfl, he⟩ := here?_eq_some_iff.mp hhere
    obtain ⟨tail, htail⟩ := he.opening.lt_head
    refine ⟨a.length + tail.length, starts_iff.mpr ⟨a, e.opening, e.body ++ (e.closing ++ rest),
      by simp [text], rfl, by simp [htail]; omega, he.opening, ?_⟩⟩
    exact reads_closing?.isSome_findFirst_iff.mpr ⟨e.body, e.closing, rest, rfl, he.closing⟩

/-- The pattern has readings exactly where an element starts. -/
theorem readingsAt_ne_nil_iff {t : Text} {s : Nat} :
    readingsAt t s ≠ [] ↔ ∃ g, Starts t s g := by
  rw [ne_eq, readingsAt, ← List.head?_eq_none_iff, head?_readings, ← ne_eq,
    ← Option.isSome_iff_ne_none, exists_starts_iff]
  constructor
  · intro h
    refine ⟨t.take s, t.drop s, (List.take_append_drop s t).symm, ?_, h⟩
    rw [List.length_take, Nat.min_eq_left]
    apply Nat.le_of_not_lt
    intro hlt
    rw [List.drop_eq_nil_of_le (Nat.le_of_lt hlt)] at h
    cases h
  · rintro ⟨a, u, rfl, rfl, hu⟩
    rw [List.drop_left]
    exact hu

/-- All readings at a position end the opening tag at the same place. -/
theorem opening_of_mem_readingsAt {t : Text} {s g : Nat} (h : Starts t s g)
    {r : Element × Text} (hr : r ∈ readingsAt t s) : r.1.opening = t.extract s (g + 1) := by
  obtain ⟨a, o, u, rfl, rfl, hg, ho⟩ := opens_iff.mp h.toOpens
  rw [readingsAt, List.drop_left] at hr
  simp only [readings, List.mem_flatMap, List.mem_map, mem_tries_opening_iff] at hr
  obtain ⟨p, hp, b, -, c, -, rfl⟩ := hr
  have hopening := (reads_opening? (o ++ u) o u).mpr ⟨rfl, ho⟩
  obtain rfl := Option.some.inj (hp.symm.trans hopening)
  simp [hg]

/-- The first element of a text starts at the least position where one starts. -/
theorem before_le_of_starts {t : Text} {s g : Nat} {f : Text.Found Element}
    (hf : find? t = some f) (h : Starts t s g) : f.before.length ≤ s := by
  obtain ⟨a, u, hcut, rfl, hu⟩ := exists_starts_iff.mp ⟨g, h⟩
  obtain ⟨ht, -, hs⟩ := find?_eq_some_iff.mp hf
  apply Nat.le_of_not_lt
  intro hlt
  obtain ⟨b, hb, rfl⟩ := Text.exists_of_append_eq_append (hcut.symm.trans ht) (Nat.le_of_lt hlt)
  have hne : b ≠ [] := by
    rintro rfl
    simp [hb] at hlt
  rw [hs a b hb hne] at hu
  cases hu

/-- A search fails only where no element starts. -/
theorem find?_eq_none_iff_starts {t : Text} : find? t = none ↔ ∀ s g, ¬ Starts t s g := by
  rw [find?_eq_none_iff]
  constructor
  · intro hs s g h
    obtain ⟨a, u, rfl, -, hu⟩ := exists_starts_iff.mp ⟨g, h⟩
    have hne : u ≠ [] := by
      rintro rfl
      cases hu
    rw [← List.append_nil u, hs a u rfl hne] at hu
    cases hu
  · intro h a b hcut _
    rw [List.append_nil, ← Option.not_isSome_iff_eq_none]
    intro hb
    obtain ⟨g, hstarts⟩ := exists_starts_iff.mpr ⟨a, b, hcut, rfl, hb⟩
    exact h a.length g hstarts

/-- The element that is found is cut out of the text where it starts and where it closes. -/
theorem exists_positions_of_find? {t : Text} {f : Text.Found Element} (hf : find? t = some f) :
    ∃ g c, Starts t f.before.length g ∧
      Text.IsFirst (IsEndTag "</script".toList) t (g + 1) c f.item.closing ∧
      f = ⟨t.take f.before.length,
        ⟨t.extract f.before.length (g + 1), t.extract (g + 1) c, f.item.closing⟩,
        t.drop (c + f.item.closing.length)⟩ := by
  obtain ⟨ht, he, -⟩ := find?_eq_some_iff.mp hf
  obtain ⟨before, ⟨o, body, closing⟩, after⟩ := f
  obtain ⟨tail, htail⟩ := he.opening.lt_head
  obtain ⟨tail', htail', -⟩ := closing_lt_head he.closing
  have hs : Text.Silent closing? body (closing ++ after) := by
    rw [show closing = '<' :: tail' from htail']
    exact silent_closing? he.body
  have hclose := Text.findFirst_append_of_silent hs
    ((reads_closing? _ _ _).mpr ⟨rfl, he.closing⟩)
  have hg : before.length + tail.length + 1 = (before ++ o).length := by
    rw [show o = '<' :: tail from htail]
    simp
    omega
  have hcut : t = before ++ o ++ (body ++ (closing ++ after)) := by
    simp [ht, text]
  refine ⟨before.length + tail.length, (before ++ o).length + body.length, ?_, ?_, ?_⟩
  · exact starts_iff.mpr ⟨before, o, _, hcut.trans (List.append_assoc ..), rfl, hg, he.opening,
      Option.isSome_of_eq_some hclose⟩
  · rw [hg, hcut]
    exact reads_closing?.isFirst hclose
  · have hafter : t.drop ((before ++ o).length + body.length + closing.length) = after := by
      rw [hcut, ← List.append_assoc, ← List.append_assoc]
      exact List.drop_left' (by simp only [List.length_append])
    rw [hg, hafter, hcut]
    simp

/--
The search for an element is a leftmost search with backtracking over its pattern.  The
pattern has readings exactly where an element starts, and all of them end the opening tag
at the first `>`.  The element that is found starts at the least such position, and its
body runs from there to the first closing tag.
-/
theorem finds_leftmost (t : Text) :
    find? t = Text.search readings t ∧
    (∀ s, readingsAt t s ≠ [] ↔ ∃ g, Starts t s g) ∧
    (∀ s g, Starts t s g → ∀ r ∈ readingsAt t s, r.1.opening = t.extract s (g + 1)) ∧
    (find? t = none ↔ ∀ s g, ¬ Starts t s g) ∧
    ∀ f, find? t = some f → ∃ s g c tag,
      (Starts t s g ∧ ∀ s' g', Starts t s' g' → s ≤ s') ∧
      Text.IsFirst (IsEndTag "</script".toList) t (g + 1) c tag ∧
      f = ⟨t.take s, ⟨t.extract s (g + 1), t.extract (g + 1) c, tag⟩, t.drop (c + tag.length)⟩ := by
  refine ⟨find?_eq_search t, fun _ => readingsAt_ne_nil_iff,
    fun _ _ h _ hr => opening_of_mem_readingsAt h hr, find?_eq_none_iff_starts, ?_⟩
  intro f hf
  obtain ⟨g, c, hstarts, hfirst, hcut⟩ := exists_positions_of_find? hf
  exact ⟨f.before.length, g, c, f.item.closing,
    ⟨hstarts, fun _ _ h => before_le_of_starts hf h⟩, hfirst, hcut⟩

/-- A script of another type is passed over, and quotes need not be of one kind. -/
example :
    (find? "<script>a<SCRIPT type='application/c2pa-manifest\">x</script ></script>".toList).map
      (fun f => (f.before, f.item.body, f.after)) =
        some ("<script>a".toList, "x".toList, "</script>".toList) := rfl

end Element

end Markup

end PageManifest
