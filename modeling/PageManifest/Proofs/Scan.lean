import PageManifest.Proofs.Offsets
import PageManifest.Proofs.Placement

/-! # Scanning a document that an element was written into

The element that embedding writes is recognised wherever the text in front of it
has no opening tag of its own.  It need not start where it was written: a tag
left without its end in front of it becomes part of the opening tag.  The payload
text and its place do not depend on that.
-/

namespace PageManifest

namespace Markup.Element

/-- The opening tag of a written element. -/
def canonicalOpening : Text :=
  "<script type=\"".toList ++ manifestType ++ "\">".toList

/-- The closing tag of a written element. -/
def canonicalClosing : Text :=
  "</script>".toList

/-- The element that is written for a payload. -/
def canonical (payload : Bytes) : Element :=
  ⟨canonicalOpening, Base64.encode payload, canonicalClosing⟩

theorem text_canonical (payload : Bytes) : (canonical payload).text = Inline.tag payload := rfl

theorem isOpening_canonical : IsOpening canonicalOpening :=
  ((reads_opening? canonicalOpening canonicalOpening []).mp rfl).2

theorem isEndTag_canonical : IsEndTag "</script".toList canonicalClosing :=
  ((reads_closing? canonicalClosing canonicalClosing []).mp rfl).2

theorem find_closing?_encode (payload : Bytes) :
    Text.findFirst closing? (Base64.encode payload) = none := by
  cases h : Text.findFirst closing? (Base64.encode payload) with
  | none => rfl
  | some f =>
      obtain ⟨a, x, b, hcut, hx⟩ := reads_closing?.isSome_findFirst_iff.mp (by rw [h]; rfl)
      obtain ⟨tail, htail, -⟩ := closing_lt_head hx
      have hmem : '<' ∈ Base64.encode payload := by simp [hcut, htail]
      exact absurd hmem (Base64.not_mem_encode (by decide) (by decide))

theorem isElement_canonical (payload : Bytes) : IsElement (canonical payload) :=
  ⟨isOpening_canonical, find_closing?_encode payload, isEndTag_canonical⟩

theorem tag_lt_head (payload : Bytes) : ∃ tail, Inline.tag payload = '<' :: tail :=
  text_lt_head (isElement_canonical payload)

theorem here?_tag (payload : Bytes) (z : Text) :
    here? (Inline.tag payload ++ z) = some (canonical payload, z) :=
  here?_eq_some_iff.mpr ⟨rfl, isElement_canonical payload⟩

/-- With nothing left open in front of it, a written element is found where it was written. -/
theorem find?_append_tag {a : Text} (hopening : hasOpening a = false)
    (hunclosed : hasUnclosed a = false) (payload : Bytes) (z : Text) :
    find? (a ++ (Inline.tag payload ++ z)) = some ⟨a, canonical payload, z⟩ := by
  refine Text.findFirst_append_of_silent (silent_here? hopening hunclosed ?_) (here?_tag payload z)
  obtain ⟨tail, htail⟩ := tag_lt_head payload
  intro c v h
  rw [htail, List.cons_append, List.cons.injEq] at h
  exact h.1.symm

/-- An opening tag that reaches into a written element ends with its opening tag. -/
theorem eq_canonicalOpening_of_across {b x w z : Text} {payload : Bytes}
    (ho : IsOpening (b ++ x)) (hx : x ≠ []) (h : Inline.tag payload ++ z = x ++ w) :
    x = canonicalOpening := by
  obtain ⟨inner, hinner, hgt⟩ := ho.gt_last
  obtain ⟨inner', hinner', hgt'⟩ := isOpening_canonical.gt_last
  have hb := ho.gt_not_mem_of_append hx
  -- Both tags end with the first `>` of the same text.
  have htext : inner ++ '>' :: w = b ++ inner' ++ '>' ::
      (Base64.encode payload ++ (canonicalClosing ++ z)) := by
    calc
      inner ++ '>' :: w = b ++ x ++ w := by simp [hinner]
      _ = b ++ (Inline.tag payload ++ z) := by rw [h, List.append_assoc]
      _ = b ++ (canonicalOpening ++ (Base64.encode payload ++ (canonicalClosing ++ z))) := by
          simp [← text_canonical, text, canonical]
      _ = _ := by simp [hinner']
  have hsame := Text.append_cons_inj_of_not_mem hgt (by simp [hb, hgt']) htext
  have hwhole : b ++ x = b ++ canonicalOpening := by
    rw [hinner, hsame.1, hinner', List.append_assoc]
  exact List.append_cancel_left hwhole

/-- Without an opening tag in front of it, a written element is found up to its opening tag. -/
theorem find?_append_tag_of_not_hasOpening {a : Text} (ha : hasOpening a = false)
    (payload : Bytes) (z : Text) :
    ∃ s b, a = s ++ b ∧ find? (a ++ (Inline.tag payload ++ z)) =
      some ⟨s, ⟨b ++ canonicalOpening, Base64.encode payload, canonicalClosing⟩, z⟩ := by
  have hsome : (here? (Inline.tag payload ++ z)).isSome = true := by
    rw [here?_tag]
    rfl
  obtain ⟨f, b, hf, hab, hb, -⟩ := Text.findFirst_append_of_isSome (a := a) hsome
  refine ⟨f.before, b, hab, ?_⟩
  have ho := (here?_eq_some_iff.mp hb).2.opening
  have hopen : IsOpening (b ++ canonicalOpening) := by
    rcases here?_append_cases hb with ⟨y, hy⟩ | ⟨x, w, hx, hcut, hw⟩
    · exact absurd ho (not_isOpening_of_inside ha (by rw [hab, hy]))
    · rw [hcut] at ho
      exact eq_canonicalOpening_of_across ho hx hw ▸ ho
  have hwritten : here? (b ++ (Inline.tag payload ++ z)) =
      some (⟨b ++ canonicalOpening, Base64.encode payload, canonicalClosing⟩, z) := by
    refine here?_eq_some_iff.mpr ⟨?_, hopen, find_closing?_encode payload, isEndTag_canonical⟩
    simp [← text_canonical, text, canonical]
  rw [hwritten, Option.some.injEq, Prod.mk.injEq] at hb
  rw [find?, hf, hb.1, hb.2]

/-- In a document without an element, no closing tag follows an opening tag. -/
theorem find_closing?_of_none {t a u s o y : Text} (h : find? t = none) (ht : t = a ++ u)
    (ha : a = s ++ (o ++ y)) (ho : IsOpening o) : Text.findFirst closing? y = none := by
  cases hy : Text.findFirst closing? y with
  | none => rfl
  | some f =>
      have hfollow : (Text.findFirst closing? (y ++ u)).isSome = true := by
        have hsome : (Text.findFirst closing? y).isSome = true := by
          rw [hy]
          rfl
        simpa using reads_closing?.isSome_findFirst_append hsome [] u
      obtain ⟨tail, htail⟩ := ho.lt_head
      have found := here?_isSome_of_opening ho hfollow
      have quiet := find?_eq_none_iff.mp h s (o ++ (y ++ u)) (by simp [ht, ha]) (by simp [htail])
      rw [List.append_nil] at quiet
      rw [quiet] at found
      cases found

theorem closing?_tag (payload : Bytes) (z : Text) : closing? (Inline.tag payload ++ z) = none := by
  cases h : closing? (Inline.tag payload ++ z) with
  | none => rfl
  | some p =>
      obtain ⟨hcut, k, blanks, hp, hk, -⟩ := (reads_closing? _ _ _).mp h
      -- The second character of the written element is a letter, not a slash.
      have hletter : (Inline.tag payload ++ z)[1]? = some 's' := rfl
      have hlen := congrArg List.length hk
      rw [List.length_map] at hlen
      have hkey : (k.map Text.fold)[1]? = some '/' := by
        rw [hk]
        rfl
      have hlong : 1 < k.length := by
        rw [hlen]
        decide
      rw [hcut, hp, List.append_assoc, List.append_assoc,
        List.getElem?_append_left hlong] at hletter
      rw [List.getElem?_map, hletter] at hkey
      exact absurd hkey (by decide)

theorem silent_closing?_tag {s : Text} (hs : Text.findFirst closing? s = none) (payload : Bytes)
    (z : Text) : Text.Silent closing? s (Inline.tag payload ++ z) := by
  obtain ⟨tail, htail⟩ := tag_lt_head payload
  rw [htail]
  exact silent_closing? hs

/-- A body that opens in front of a written element and is closed by it holds its `<`. -/
theorem lt_mem_body {y body closing after z : Text} {payload : Bytes}
    (hy : Text.findFirst closing? y = none) (hc : IsEndTag "</script".toList closing)
    (h : y ++ (Inline.tag payload ++ z) = body ++ (closing ++ after)) : '<' ∈ body := by
  have hclose : closing? (closing ++ after) = some (closing, after) :=
    (reads_closing? _ _ _).mpr ⟨rfl, hc⟩
  have hnotHere : closing ++ after ≠ Inline.tag payload ++ z := by
    intro hsame
    rw [hsame, closing?_tag] at hclose
    cases hclose
  rcases List.append_eq_append_iff.mp h with ⟨x, rfl, hrest⟩ | ⟨x, rfl, hrest⟩
  · cases x with
    | nil => exact absurd hrest.symm hnotHere
    | cons c x =>
        obtain ⟨tail, htail⟩ := tag_lt_head payload
        rw [htail, List.cons_append, List.cons_append, List.cons.injEq] at hrest
        simp [← hrest.1]
  · -- The closing tag would begin inside the text in front of the written element.
    cases x with
    | nil => exact absurd hrest hnotHere
    | cons c x =>
        have quiet := silent_closing?_tag hy payload z body (c :: x) rfl (by simp)
        rw [← hrest, hclose] at quiet
        cases quiet

/-- Behind an opening tag that is never closed, a written element is part of the body. -/
theorem find?_append_tag_of_hasOpening {t a u : Text} (h : find? t = none) (ht : t = a ++ u)
    (ha : hasOpening a = true) (payload : Bytes) (z : Text) :
    ∃ f, find? (a ++ (Inline.tag payload ++ z)) = some f ∧ '<' ∈ f.item.body := by
  obtain ⟨a₁, o, a₂, rfl, ho⟩ := hasOpening_iff.mp ha
  have hclosing : (Text.findFirst closing? (a₂ ++ (Inline.tag payload ++ z))).isSome = true :=
    isSome_closing?_of_isElement (isElement_canonical payload) a₂ z
  obtain ⟨f, b, hf, rfl, hb, -⟩ := Text.findFirst_append_of_isSome (a := a₁)
    (here?_isSome_of_opening ho hclosing)
  have htext : f.before ++ b ++ (o ++ (a₂ ++ (Inline.tag payload ++ z))) =
      f.before ++ b ++ (o ++ a₂) ++ (Inline.tag payload ++ z) := by
    simp only [List.append_assoc]
  rw [htext] at hf
  refine ⟨f, hf, ?_⟩
  have hhere : here? (b ++ (o ++ a₂) ++ (Inline.tag payload ++ z)) = some (f.item, f.after) := by
    simpa using hb
  obtain ⟨hbody, he⟩ := here?_eq_some_iff.mp hhere
  rcases here?_append_cases hhere with ⟨y, hy⟩ | ⟨x, w, hx, hopen, -⟩
  · have hnone := find_closing?_of_none h ht (s := f.before) (y := y)
      (by rw [← hy, List.append_assoc]) he.opening
    rw [hy, text, List.append_assoc, List.append_assoc, List.append_assoc,
      List.append_cancel_left_eq] at hbody
    exact lt_mem_body hnone he.closing hbody
  · -- The opening tag found first would reach over the one that is there.
    have hgt := (hopen ▸ he.opening).gt_not_mem_of_append hx
    obtain ⟨inner, hinner, -⟩ := ho.gt_last
    exact absurd (by simp [hinner]) hgt

end Markup.Element

/-! ## What the scan reports -/

namespace InlineScan

open Markup

/-- A readable payload text is reported with its mark. -/
theorem ofText_of_payload {t s o c after : Text} {payload : Bytes}
    (hf : Element.find? t = some ⟨s, ⟨o, Base64.encode payload, c⟩, after⟩) (hp : payload ≠ [])
    (charset : Charset) : ofText charset t =
      ((Marker.ofSpan .inlineTag charset t (s ++ o).length
        ((s ++ o).length + (Base64.encode payload).length)).mapError .charset).map
          (manifest payload) := by
  have hclean : ∀ d ∈ Base64.encode payload, Text.isBlank d = false :=
    fun d hd => Base64.isBlank_of_mem_encode hd
  have hstart : s.length + o.length + ((Base64.encode payload).length -
      (Base64.encode payload).length) = (s ++ o).length := by
    simp
  unfold ofText
  simp only [hf, Text.trim_of_no_blank hclean, Text.trimStart_of_no_blank hclean,
    List.isEmpty_iff, Base64.encode_ne_nil hp, if_false, Base64.decode_encode, hstart]
  cases Marker.ofSpan .inlineTag charset t (s ++ o).length
    ((s ++ o).length + (Base64.encode payload).length) <;> rfl

/-- A document is cut where its payload text begins. -/
theorem payload_cut {t s o c after : Text} {payload : Bytes}
    (hf : Element.find? t = some ⟨s, ⟨o, Base64.encode payload, c⟩, after⟩) :
    t = s ++ o ++ (Base64.encode payload ++ (c ++ after)) := by
  rw [(Element.find?_eq_some_iff.mp hf).1]
  simp [Element.text]

/-- A readable payload text is reported with the octets that it takes. -/
theorem ofText_of_encode {k : Charset.Codec} {t s o c after : Text} {payload : Bytes}
    (hf : Element.find? t = some ⟨s, ⟨o, Base64.encode payload, c⟩, after⟩) (hp : payload ≠ [])
    (hk : k.Encodes (s ++ o)) :
    ofText (.codec k) t = .ok (.manifest payload ⟨.inlineTag,
      (k.mark ++ k.body (s ++ o)).length, (k.body (Base64.encode payload)).length⟩) := by
  have hencoded : k.Encodes (Base64.encode payload) :=
    fun d hd => k.encodes_of_ascii (Base64.toNat_lt_of_mem_encode hd)
  have hspan := Marker.ofSpan_append hk hencoded .inlineTag (c ++ after)
  rw [← payload_cut hf] at hspan
  rw [ofText_of_payload hf hp, hspan]
  rfl

/-- A payload is read just if its text can be marked. -/
theorem readPayload_eq_ok_iff {t s o c after : Text} {payload : Bytes} {charset : Charset}
    (hf : Element.find? t = some ⟨s, ⟨o, Base64.encode payload, c⟩, after⟩) (hp : payload ≠ []) :
    readPayload charset t = .ok payload ↔ charset.Marks (s ++ o) (Base64.encode payload) := by
  rw [← Marker.exists_ofSpan_iff .inlineTag charset (s ++ o) (Base64.encode payload) (c ++ after),
    ← payload_cut hf, readPayload, ofText_of_payload hf hp]
  cases Marker.ofSpan .inlineTag charset t (s ++ o).length
      ((s ++ o).length + (Base64.encode payload).length) with
  | error fault => exact ⟨nofun, nofun⟩
  | ok marker =>
      refine iff_of_true ?_ ⟨marker, rfl⟩
      cases payload with
      | nil => exact absurd rfl hp
      | cons b payload => rfl

/-- A body with markup in it is no payload text, whatever the charset. -/
theorem ofText_of_lt_mem {t : Text} {f : Text.Found Element} (hf : Element.find? t = some f)
    (hlt : '<' ∈ f.item.body) :
    ∃ fault, ∀ charset, ofText charset t = .error (.malformedPayload fault) := by
  have hmem : '<' ∈ Text.trim f.item.body := Text.mem_trim rfl hlt
  obtain ⟨fault, hfault⟩ := Base64.decode_of_foreign (by decide) (by decide) hmem
  have hne : Text.trim f.item.body ≠ [] := List.ne_nil_of_mem hmem
  refine ⟨fault, fun charset => ?_⟩
  unfold ofText
  simp only [hf, List.isEmpty_iff, hne, if_false, hfault]

end InlineScan

/-! ## Scanning what embedding makes -/

namespace Inline

open Markup

/-- In front of an element that gets replaced no opening tag is left. -/
theorem hasOpening_lead_iff (t : Text) :
    Element.hasOpening (lead t) = true ↔
      ¬ (hasElement t = true ∨ Element.hasOpening (front t) = false) := by
  unfold lead hasElement
  cases hf : Element.find? t with
  | none => simp
  | some f => simp [(Element.front_settled hf).1]

theorem embed_parts (t : Text) (payload : Bytes) : embed t payload =
    lead t ++ Element.canonicalOpening ++
      (Base64.encode payload ++ (Element.canonicalClosing ++ rest t)) := by
  rw [embed_eq, ← Element.text_canonical]
  simp [Element.text, Element.canonical]

section Encoded

variable {k : Charset.Codec} {t : Text}

theorem encodes_lead_opening (ht : k.Encodes t) :
    k.Encodes (lead t ++ Element.canonicalOpening) := by
  obtain ⟨middle, hcut⟩ := lead_append_rest t
  rw [hcut, Charset.Codec.encodes_append_iff] at ht
  have hopening : k.Encodes Element.canonicalOpening := k.encodes_of_all_ascii rfl
  exact Charset.Codec.encodes_append_iff.mpr ⟨ht.1, hopening⟩

theorem encodes_closing_rest (ht : k.Encodes t) :
    k.Encodes (Element.canonicalClosing ++ rest t) := by
  obtain ⟨middle, hcut⟩ := lead_append_rest t
  rw [hcut, Charset.Codec.encodes_append_iff, Charset.Codec.encodes_append_iff] at ht
  have hclosing : k.Encodes Element.canonicalClosing := k.encodes_of_all_ascii rfl
  exact Charset.Codec.encodes_append_iff.mpr ⟨hclosing, ht.2.2⟩

/-- A document with a payload in it is encoded wherever the document is. -/
theorem encode_embed (ht : k.Encodes t) (payload : Bytes) :
    k.encode (embed t payload) = .ok (k.mark ++ k.body (lead t ++ Element.canonicalOpening) ++
      (k.body (Base64.encode payload) ++ k.body (Element.canonicalClosing ++ rest t))) := by
  have hpayload : k.Encodes (Base64.encode payload) :=
    fun c hc => k.encodes_of_ascii (Base64.toNat_lt_of_mem_encode hc)
  have hall : k.Encodes (embed t payload) := by
    rw [embed_parts]
    exact Charset.Codec.encodes_append_iff.mpr ⟨encodes_lead_opening ht,
      Charset.Codec.encodes_append_iff.mpr ⟨hpayload, encodes_closing_rest ht⟩⟩
  rw [Charset.Codec.encode_of_encodes hall, embed_parts]
  simp

theorem ofText_embed (ht : k.Encodes t) (hopen : Element.hasOpening (lead t) = false)
    {payload : Bytes} (hp : payload ≠ []) :
    InlineScan.ofText (.codec k) (embed t payload) = .ok (.manifest payload
      ⟨.inlineTag, (k.mark ++ k.body (lead t ++ Element.canonicalOpening)).length,
        (k.body (Base64.encode payload)).length⟩) := by
  obtain ⟨s, b, hcut, hf⟩ := Element.find?_append_tag_of_not_hasOpening hopen payload (rest t)
  have hfront : lead t ++ Element.canonicalOpening = s ++ (b ++ Element.canonicalOpening) := by
    rw [hcut, List.append_assoc]
  have hk := encodes_lead_opening ht
  rw [← embed_eq] at hf
  rw [hfront] at hk ⊢
  exact InlineScan.ofText_of_encode hf hp hk

end Encoded

/-- With an opening tag left in front of it, the element makes the document unreadable. -/
theorem ofText_embed_of_hasOpening {t : Text} (hopen : Element.hasOpening (lead t) = true)
    (payload : Bytes) : ∃ fault, ∀ charset,
      InlineScan.ofText charset (embed t payload) = .error (.malformedPayload fault) := by
  have hnone : Element.find? t = none := by
    have h := (hasOpening_lead_iff t).mp hopen
    simp only [not_or] at h
    exact hasElement_eq_false_iff.mp (by simpa using h.1)
  obtain ⟨middle, hcut⟩ := lead_append_rest t
  obtain ⟨f, hf, hlt⟩ := Element.find?_append_tag_of_hasOpening hnone hcut hopen payload (rest t)
  rw [← embed_eq] at hf
  exact InlineScan.ofText_of_lt_mem hf hlt

end Inline

end PageManifest
