import PageManifest.Proofs.Partition

/-! # Replacing a manifest that is there

Measuring a signed document leaves its element as it is spelled, while embedding
writes the canonical element and drops the blanks around it.  So the hash of a
document survives a new payload exactly if its element was canonical already.
-/

namespace PageManifest

open Markup

namespace Text

theorem isBlank_of_mem_leadingBlanks {t : Text} : ∀ c ∈ leadingBlanks t, isBlank c = true :=
  List.all_eq_true.mp List.all_takeWhile

theorem isBlank_of_mem_trailingBlanks {t : Text} :
    ∀ c ∈ trailingBlanks t, isBlank c = true := by
  obtain ⟨blanks, hcut, hblanks⟩ := trimEnd_append_blanks (trimStart t)
  have htail : trailingBlanks t = blanks :=
    List.append_cancel_left ((trim_append_trailingBlanks t).trans hcut)
  rw [htail]
  exact hblanks

theorem trim_eq_self_iff {t : Text} :
    trim t = t ↔ leadingBlanks t = [] ∧ trailingBlanks t = [] := by
  have hstart := leadingBlanks_append_trimStart t
  have hend := trim_append_trailingBlanks t
  constructor
  · intro h
    rw [← hend, h] at hstart
    have hlen := congrArg List.length hstart
    simp only [List.length_append] at hlen
    exact ⟨List.eq_nil_of_length_eq_zero (by omega), List.eq_nil_of_length_eq_zero (by omega)⟩
  · rintro ⟨hlead, htrail⟩
    rw [hlead, List.nil_append] at hstart
    rw [htrail, List.append_nil, hstart] at hend
    exact hend

/-- Markup does not begin with a blank. -/
theorem eq_nil_of_blanks_append_lt {blanks s t : Text} (h : ∀ c ∈ blanks, isBlank c = true)
    (heq : blanks ++ s = '<' :: t) : blanks = [] := by
  cases blanks with
  | nil => rfl
  | cons c blanks =>
      rw [List.cons_append, List.cons.injEq] at heq
      have hblank := h c (by simp)
      rw [heq.1] at hblank
      cases hblank

end Text

namespace Markup

/-- The first `>` of a closing tag is its end. -/
theorem IsEndTag.gt_last {keyword tag : Text} (hk : '>' ∉ keyword) (h : IsEndTag keyword tag) :
    ∃ inner, tag = inner ++ ['>'] ∧ '>' ∉ inner := by
  obtain ⟨k, blanks, rfl, rfl, hblank⟩ := h
  refine ⟨k ++ blanks, rfl, ?_⟩
  rw [List.mem_append]
  rintro (hmem | hmem)
  · exact hk (Text.gt_mem_map_fold hmem)
  · exact Text.not_mem_of_all_blank hblank rfl hmem

namespace Element

/-- An element spelled as it is written, with no blanks around it or around its payload text. -/
structure Plain (f : Text.Found Element) : Prop where
  before : Text.trimEnd f.before = f.before
  opening : f.item.opening = canonicalOpening
  body : Text.trim f.item.body = f.item.body
  closing : f.item.closing = canonicalClosing
  after : Text.trimStart f.after = f.after

theorem Plain.front_eq {f : Text.Found Element} (h : Plain f) :
    payloadFront f = Text.trimEnd f.before ++ canonicalOpening := by
  rw [payloadFront, (Text.trim_eq_self_iff.mp h.body).1, List.append_nil, h.opening, h.before]

theorem Plain.back_eq {f : Text.Found Element} (h : Plain f) :
    payloadBack f = canonicalClosing ++ Text.trimStart f.after := by
  rw [payloadBack, (Text.trim_eq_self_iff.mp h.body).2, List.nil_append, h.closing, h.after]

/-- Two tags, with blanks around and between them, that make up the canonical ones. -/
theorem plain_of_tags {outer leading trailing outer' opening closing : Text}
    (houter : ∀ c ∈ outer, Text.isBlank c = true)
    (hleading : ∀ c ∈ leading, Text.isBlank c = true)
    (htrailing : ∀ c ∈ trailing, Text.isBlank c = true)
    (hopening : IsOpening opening) (hclosing : IsEndTag "</script".toList closing)
    (h : outer ++ (opening ++ (leading ++ (trailing ++ (closing ++ outer')))) =
      canonicalOpening ++ canonicalClosing) :
    outer = [] ∧ opening = canonicalOpening ∧ leading = [] ∧ trailing = [] ∧
      closing = canonicalClosing ∧ outer' = [] := by
  have hnone : outer = [] := Text.eq_nil_of_blanks_append_lt houter h
  rw [hnone, List.nil_append] at h
  -- The first `>` ends the opening tag on either side.
  obtain ⟨inner, hinner, hgt⟩ := hopening.gt_last
  obtain ⟨written, hwritten, hgt'⟩ := isOpening_canonical.gt_last
  rw [hinner, hwritten, List.append_assoc, List.append_assoc] at h
  obtain ⟨hsame, hrest⟩ := Text.append_cons_inj_of_not_mem hgt hgt' h
  have hopened : opening = canonicalOpening := by rw [hinner, hsame, hwritten]
  have hnone' : leading = [] := Text.eq_nil_of_blanks_append_lt hleading hrest
  rw [hnone', List.nil_append] at hrest
  have hnone'' : trailing = [] := Text.eq_nil_of_blanks_append_lt htrailing hrest
  rw [hnone'', List.nil_append] at hrest
  -- And so does the next one for the closing tag.
  obtain ⟨inner', hinner', hgt''⟩ := hclosing.gt_last (by decide)
  obtain ⟨written', hwritten', hgt'''⟩ := isEndTag_canonical.gt_last (by decide)
  rw [hinner', hwritten', List.append_assoc] at hrest
  obtain ⟨hsame', hnothing⟩ := Text.append_cons_inj_of_not_mem hgt'' hgt''' hrest
  have hclosed : closing = canonicalClosing := by rw [hinner', hsame', hwritten']
  exact ⟨hnone, hopened, hnone', hnone'', hclosed, hnothing⟩

/-- What stays around the payload text is what embedding would leave there. -/
theorem around_payload_eq_iff {t : Text} {f : Text.Found Element} (hf : find? t = some f) :
    payloadFront f ++ payloadBack f =
        Text.trimEnd f.before ++ canonicalOpening ++
          (canonicalClosing ++ Text.trimStart f.after) ↔ Plain f := by
  constructor
  · intro h
    have he := (find?_eq_some_iff.mp hf).2.1
    obtain ⟨outer, hbefore, houter⟩ := Text.trimEnd_append_blanks f.before
    obtain ⟨outer', hafter, -⟩ := Text.blanks_append_trimStart f.after
    have htags : outer ++ (f.item.opening ++ (Text.leadingBlanks f.item.body ++
        (Text.trailingBlanks f.item.body ++ (f.item.closing ++ outer')))) =
          canonicalOpening ++ canonicalClosing := by
      rw [payloadFront, payloadBack] at h
      generalize Text.trimEnd f.before = lead at h hbefore
      generalize Text.trimStart f.after = rest at h hafter
      rw [hbefore, hafter] at h
      simp only [List.append_assoc, List.append_cancel_left_eq] at h
      simp only [← List.append_assoc, List.append_cancel_right_eq] at h ⊢
      exact h
    obtain ⟨rfl, hopening, hleading, htrailing, hclosing, rfl⟩ := plain_of_tags houter
      Text.isBlank_of_mem_leadingBlanks Text.isBlank_of_mem_trailingBlanks he.opening he.closing
        htags
    rw [List.append_nil] at hbefore
    rw [List.nil_append] at hafter
    exact ⟨hbefore.symm, hopening, Text.trim_eq_self_iff.mpr ⟨hleading, htrailing⟩, hclosing,
      hafter.symm⟩
  · intro h
    rw [h.front_eq, h.back_eq]

end Element

end Markup

namespace Inline

variable {k : Charset.Codec} {t : Text} {octets old placeholder : Bytes} {f : Text.Found Element}

/-- A signed document is measured as it is, around the payload text that it has. -/
theorem hashRegions_of_decode (ht : k.encode t = .ok octets) (hf : Element.find? t = some f)
    (hne : Text.trim f.item.body ≠ [])
    (hdecode : Base64.decode (Text.trim f.item.body) = .ok old) (hold : old ≠ [])
    (hph : placeholder ≠ []) : withPlaceholder t placeholder = .ok t ∧
      ∃ regions, hashRegions (.codec k) t placeholder = .ok regions ∧
        Region.Covers octets regions (k.mark ++ k.body (Element.payloadFront f))
          (k.body (Element.payloadBack f)) := by
  obtain ⟨hall, hdata⟩ := Charset.Codec.encode_eq_ok_iff.mp ht
  have hutf8 : Charset.Codec.utf8.Encodes t := fun _ _ => rfl
  have hpadded := withPlaceholder_of_payload (InlineScan.ofText_of_decode hutf8 hf hne hdecode)
    hold hph
  have hcut : octets = k.mark ++ k.body (Element.payloadFront f) ++
      (k.body (Text.trim f.item.body) ++ k.body (Element.payloadBack f)) := by
    rw [hdata, List.append_assoc, ← Charset.Codec.body_append, ← Charset.Codec.body_append,
      ← Element.payload_cut hf]
  have hcovers := Region.covers_regionsAround (k.mark ++ k.body (Element.payloadFront f))
    (k.body (Text.trim f.item.body)) (k.body (Element.payloadBack f))
  rw [← hcut] at hcovers
  refine ⟨hpadded, _, ?_, hcovers⟩
  simp only [hashRegions, hpadded, InlineScan.ofText_of_decode hall hf hne hdecode,
    Charset.encode_of_codec ht, Marker.stop]

/--
What a hash covers in a signed document is kept by a new payload exactly if the
element was plain.  Only then does the digest stay whatever the algorithm.
-/
theorem covered_by_resigning_iff [Platform] (ht : k.encode t = .ok octets)
    (hf : Element.find? t = some f)
    {marker : Marker} (hscan : InlineScan.ofText (.codec k) t = .ok (.manifest old marker))
    (hold : old ≠ []) (placeholder payload : Bytes) (hph : placeholder ≠ [])
    (hp : payload ≠ []) :
    withPlaceholder t placeholder = .ok t ∧
    ∃ octets' regions regions' covered covered',
      k.encode (embed t payload) = .ok octets' ∧
      hashRegions (.codec k) t placeholder = .ok regions ∧
      hashRegions (.codec k) (embed t payload) placeholder = .ok regions' ∧
      Region.includedOctets octets regions = .ok covered ∧
      Region.includedOctets octets' regions' = .ok covered' ∧
      (covered = covered' ↔ Element.Plain f) ∧
      ∀ algorithm,
        Region.digestIncluded octets regions algorithm = Region.digestOf covered algorithm ∧
        Region.digestIncluded octets' regions' algorithm = Region.digestOf covered' algorithm := by
  have hall : k.Encodes t := (Charset.Codec.encode_eq_ok_iff.mp ht).1
  obtain ⟨g, hg, hne, hdecode⟩ := InlineScan.exists_of_ofText hscan
  obtain rfl : g = f := Option.some.inj (hg.symm.trans hf)
  obtain ⟨hpadded, regions, hregions, hcovers⟩ := hashRegions_of_decode ht hf hne hdecode hold hph
  have hlead : lead t = Text.trimEnd g.before := by rw [lead, hf]
  have hrest : rest t = Text.trimStart g.after := by rw [rest, hf]
  have hopen : Element.hasOpening (lead t) = false := hlead ▸ (Element.front_settled hf).1
  obtain ⟨octets', regions', hencode, hregions', hcovers'⟩ := hashRegions_embed hall hopen hp hph
  refine ⟨hpadded, octets', regions, regions', _, _, hencode, hregions, hregions', hcovers.octets,
    hcovers'.octets, ?_, fun algorithm =>
      ⟨hcovers.digestIncluded_eq algorithm, hcovers'.digestIncluded_eq algorithm⟩⟩
  have hkept : k.Encodes (Element.payloadFront g ++ Element.payloadBack g) := by
    rw [Element.payload_cut hf, Charset.Codec.encodes_append_iff,
      Charset.Codec.encodes_append_iff] at hall
    exact Charset.Codec.encodes_append_iff.mpr ⟨hall.1, hall.2.2⟩
  have hwritten := Charset.Codec.encodes_append_iff.mpr
    ⟨encodes_lead_opening hall, encodes_closing_rest hall⟩
  rw [List.append_assoc, List.append_assoc, List.append_cancel_left_eq,
    ← Charset.Codec.body_append, ← Charset.Codec.body_append,
    Charset.Codec.body_inj hkept hwritten, hlead, hrest, Element.around_payload_eq_iff hf]

/-- A document as embedding leaves it. -/
def signedPage : Text :=
  "<body><p>\u00E9</p>".toList ++ (tag [0x41] ++ "</body>".toList)

-- The new payload is longer, and the encoded document begins with a mark.
attribute [local instance] Platform.bundled in
theorem covered_by_resigning_signedPage : ∃ octets octets' regions regions',
    Charset.Codec.utf16.encode signedPage = .ok octets ∧
      Charset.Codec.utf16.encode (embed signedPage [2, 3, 4, 5]) = .ok octets' ∧
      hashRegions (.codec .utf16) signedPage [1] = .ok regions ∧
      hashRegions (.codec .utf16) (embed signedPage [2, 3, 4, 5]) [1] = .ok regions' ∧
      Region.digestIncluded octets regions "sha256" =
        Region.digestIncluded octets' regions' "sha256" := by
  have hf : Element.find? signedPage =
      some ⟨"<body><p>\u00E9</p>".toList, Element.canonical [0x41], "</body>".toList⟩ :=
    Element.find?_append_tag (by decide +kernel) (by decide +kernel) [0x41] "</body>".toList
  have hall : Charset.Codec.utf16.Encodes signedPage := fun _ _ => rfl
  have hscan := InlineScan.ofText_of_encode hf (by decide) (k := .utf16) fun _ _ => rfl
  obtain ⟨-, octets', regions, regions', covered, covered', hencode', hregions, hregions', -, -,
    hiff, hdigest⟩ := covered_by_resigning_iff (Charset.Codec.encode_of_encodes hall) hf hscan
      (by decide) [1] [2, 3, 4, 5] (by decide) (by decide)
  have hsame : covered = covered' :=
    hiff.mpr ⟨by decide +kernel, rfl, by decide +kernel, rfl, by decide +kernel⟩
  refine ⟨_, octets', regions, regions', Charset.Codec.encode_of_encodes hall, hencode', hregions,
    hregions', ?_⟩
  rw [(hdigest "sha256").1, (hdigest "sha256").2, hsame]

/-- A signed document whose element is quoted otherwise and stands on a line of its own. -/
def spacedElement : Text :=
  "<head>\n<script type='application/c2pa-manifest'>QQ==</script>\n</head>".toList

theorem ofText_spacedElement : InlineScan.ofText (.codec .utf8) spacedElement =
    .ok (.manifest [0x41] ⟨.inlineTag, 48, 4⟩) :=
  eq_ok_of_toOption (by decide +kernel)

attribute [local instance] Platform.bundled in
theorem digest_changed_at_spacedElement :
    (∃ marker, InlineScan.ofText (.codec .utf8) spacedElement =
      .ok (.manifest [0x41] marker)) ∧
    withPlaceholder spacedElement [1] = .ok spacedElement ∧
    ∃ octets octets' regions regions' digest digest',
      Charset.Codec.utf8.encode spacedElement = .ok octets ∧
      Charset.Codec.utf8.encode (embed spacedElement [0x42]) = .ok octets' ∧
      hashRegions (.codec .utf8) spacedElement [1] = .ok regions ∧
      hashRegions (.codec .utf8) (embed spacedElement [0x42]) [1] = .ok regions' ∧
      Region.digestIncluded octets regions "sha256" = .ok digest ∧
      Region.digestIncluded octets' regions' "sha256" = .ok digest' ∧ digest ≠ digest' := by
  refine ⟨⟨_, ofText_spacedElement⟩, withPlaceholder_of_payload ofText_spacedElement (by decide)
    (by decide), _, _,
    [⟨0, 48, .included⟩, ⟨48, 4, .excluded⟩, ⟨52, 17, .included⟩],
    [⟨0, 47, .included⟩, ⟨47, 4, .excluded⟩, ⟨51, 16, .included⟩],
    "b6f2091d1db0e7066e1ab52b09f51c91571c0b8c761319e1033cbcf8bcd5b69a",
    "ae659064c2b9284709dcefdcfdb1254ebc42437a7b0ca54549a7636dcdf9e517",
    rfl, rfl, ?_, ?_, ?_, ?_, by decide⟩ <;>
  exact eq_ok_of_toOption (by decide +kernel)

end Inline

end PageManifest
