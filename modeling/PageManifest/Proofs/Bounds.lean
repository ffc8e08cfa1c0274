import PageManifest.Proofs.Links
import PageManifest.Proofs.Partition
import PageManifest.Proofs.Readings

/-! # What markers bound

Whatever a scan marks, the octets under the marker are those of the text that it
stands for, and the octets in front of it are the encoded form of the text in front
of that.  A mark of the coding counts to the front, wherever the marker lies.
-/

namespace PageManifest

open Markup

/--
A marker in an encoded document bounds a part of its text: in front of it lies the
encoded form of the text before, under it the octets of the part without a mark.
-/
structure Marker.Bounds (k : Charset.Codec) (t : Text) (data : Bytes) (m : Marker)
    (before part : Text) : Prop where
  text : ∃ after, t = before ++ (part ++ after) ∧ data.drop m.stop = k.body after
  ordered : m.offset ≤ m.stop ∧ m.stop ≤ data.length
  front : k.encode before = .ok (data.take m.offset)
  inside : (data.take m.stop).drop m.offset = k.body part

variable {k : Charset.Codec} {t : Text} {data : Bytes}

theorem Marker.bounds_of_cut {before part after : Text} (ht : k.encode t = .ok data)
    (hcut : t = before ++ (part ++ after)) (kind : MarkerKind) :
    Marker.Bounds k t data
      ⟨kind, (k.mark ++ k.body before).length, (k.body part).length⟩ before part := by
  obtain ⟨hk, hdata⟩ := Charset.Codec.encode_eq_ok_iff.mp ht
  have hall : k.Encodes t := hk
  rw [hcut, Charset.Codec.encodes_append_iff] at hall
  have hoctets : data = k.mark ++ k.body before ++ (k.body part ++ k.body after) := by
    rw [hdata, hcut, Charset.Codec.body_append, Charset.Codec.body_append, List.append_assoc]
  refine ⟨⟨after, hcut, ?_⟩, ⟨Nat.le_add_right _ _, ?_⟩, ?_, ?_⟩
  · rw [hoctets, Marker.stop, ← List.drop_drop, List.drop_left, List.drop_left]
  · simp only [hoctets, Marker.stop, List.length_append]
    omega
  · rw [hoctets, List.take_left]
    exact Charset.Codec.encode_of_encodes hall.1
  · rw [hoctets, Marker.stop, ← List.append_assoc, ← List.length_append, List.take_left,
      List.drop_left]

namespace InlineScan

/-- A place for a manifest is marked behind the opening tag of the head. -/
theorem ofText_eq_insertionPoint {marker : Marker} (hk : k.Encodes t)
    (h : ofText (.codec k) t = .ok (.insertionPoint marker)) :
    ∃ head, headOpening? t = some head ∧ t = head.before ++ head.item ++ ([] ++ head.after) ∧
      marker = ⟨.insertionPoint, (k.mark ++ k.body (head.before ++ head.item)).length, 0⟩ := by
  have hvacant := vacant_of_payload?_none h rfl
  rw [ofText_of_vacant hvacant] at h
  unfold ofHead at h
  split at h
  · cases h
  · rename_i head hhead
    have hcut : t = head.before ++ head.item ++ head.after := by
      rw [List.append_assoc]
      exact (headOpening?_cut hhead).1
    have hoffset := Charset.byteOffset_append
      (Charset.Codec.encodes_append_iff.mp (hcut ▸ hk)).1 head.after
    rw [← hcut, List.length_append] at hoffset
    rw [hoffset] at h
    cases h
    exact ⟨head, hhead, hcut, rfl⟩

end InlineScan

namespace ReferenceScan

/-- The value of a reference element is marked where it stands in the document. -/
theorem span_of_href {tag : Text.Found Text} {href : Attribute} (hk : k.Encodes t)
    (htag : referenceIn? t = some tag) (hhref : href? tag.item = some href) :
    ∃ after, t = tag.before ++ href.lead ++ (href.value ++ after) ∧
      Marker.ofSpan .linkTag (.codec k) t (tag.before.length + href.lead.length)
        (tag.before.length + href.lead.length + href.value.length) =
          .ok ⟨.linkTag, (k.mark ++ k.body (tag.before ++ href.lead)).length,
            (k.body href.value).length⟩ := by
  obtain ⟨rest, hitem⟩ := href?_cut hhref
  have hcut : t = tag.before ++ href.lead ++ (href.value ++ (rest ++ tag.after)) := by
    rw [(passed_of_referenceIn? htag).2, hitem]
    simp only [List.append_assoc]
  obtain ⟨hlead, hrest⟩ := Charset.Codec.encodes_append_iff.mp (hcut ▸ hk)
  have hvalue := (Charset.Codec.encodes_append_iff.mp hrest).1
  have hspan := Marker.ofSpan_append hlead hvalue .linkTag (rest ++ tag.after)
  rw [← hcut, List.length_append] at hspan
  exact ⟨rest ++ tag.after, hcut, hspan⟩

/-- A reference that is reported is read off the first reference element. -/
theorem ofText_eq_some {target : Text} {marker : Marker} (hk : k.Encodes t)
    (h : ofText (.codec k) t = .ok (some ⟨target, marker⟩)) :
    ∃ tag href after, referenceIn? t = some tag ∧ href? tag.item = some href ∧
      Text.trim href.value ≠ [] ∧ unescape (Text.trim href.value) = .ok target ∧
      t = tag.before ++ href.lead ++ (href.value ++ after) ∧
      marker = ⟨.linkTag, (k.mark ++ k.body (tag.before ++ href.lead)).length,
        (k.body href.value).length⟩ := by
  unfold ofText usable? at h
  cases htag : referenceIn? t with
  | none => simp [htag] at h
  | some tag =>
      cases hhref : href? tag.item with
      | none => simp [htag, hhref] at h
      | some href =>
          by_cases hblank : Text.trim href.value = []
          · simp [htag, hhref, hblank] at h
          · obtain ⟨after, hcut, hspan⟩ := span_of_href hk htag hhref
            simp only [htag, hhref, List.isEmpty_iff, hblank, if_false, hspan] at h
            split at h
            · cases h
            · rename_i read hread
              cases h
              exact ⟨tag, href, after, rfl, hhref, hblank, hread, hcut, rfl⟩

/-- A value that is not blank and can be read is reported. -/
theorem exists_ofText_eq_some {tag : Text.Found Text} {href : Attribute} {target : Text}
    (hk : k.Encodes t) (htag : referenceIn? t = some tag) (hhref : href? tag.item = some href)
    (hblank : Text.trim href.value ≠ []) (hread : unescape (Text.trim href.value) = .ok target) :
    ∃ marker, ofText (.codec k) t = .ok (some ⟨target, marker⟩) := by
  obtain ⟨after, -, hspan⟩ := span_of_href hk htag hhref
  unfold ofText usable?
  simp only [htag, hhref, List.isEmpty_iff, hblank, if_false, hspan, hread]
  exact ⟨_, rfl⟩

end ReferenceScan

/--
Markers are exact in octets: of a payload they bound the trimmed body that decodes
to it, of a reference the value that reads as its target, and the place for a
manifest lies behind the first opening tag of a head.
-/
theorem markers_bound_text (ht : k.encode t = .ok data) :
    (∀ payload m, InlineScan.ofText (.codec k) t = .ok (.manifest payload m) →
      m.kind = .inlineTag ∧ ∃ f, Element.find? t = some f ∧
        Base64.decode (Text.trim f.item.body) = .ok payload ∧
        m.Bounds k t data (Element.payloadFront f) (Text.trim f.item.body)) ∧
    (∀ m, InlineScan.ofText (.codec k) t = .ok (.insertionPoint m) →
      m.kind = .insertionPoint ∧ ∃ head, headOpening? t = some head ∧
        m.Bounds k t data (head.before ++ head.item) []) ∧
    (∀ target m, ReferenceScan.ofText (.codec k) t = .ok (some ⟨target, m⟩) →
      m.kind = .linkTag ∧ ∃ tag href, referenceIn? t = some tag ∧ href? tag.item = some href ∧
        unescape (Text.trim href.value) = .ok target ∧
        m.Bounds k t data (tag.before ++ href.lead) href.value) := by
  have hk : k.Encodes t := (Charset.Codec.encode_eq_ok_iff.mp ht).1
  refine ⟨?_, ?_, ?_⟩
  · intro payload m h
    obtain ⟨f, hf, hne, hdecode⟩ := InlineScan.exists_of_ofText h
    rw [InlineScan.ofText_of_decode hk hf hne hdecode] at h
    cases h
    exact ⟨rfl, f, hf, hdecode, Marker.bounds_of_cut ht (Element.payload_cut hf) _⟩
  · intro m h
    obtain ⟨head, hhead, hcut, rfl⟩ := InlineScan.ofText_eq_insertionPoint hk h
    exact ⟨rfl, head, hhead, Marker.bounds_of_cut ht hcut _⟩
  · intro target m h
    obtain ⟨tag, href, after, htag, hhref, -, hread, hcut, rfl⟩ :=
      ReferenceScan.ofText_eq_some hk h
    exact ⟨rfl, tag, href, htag, hhref, hread, Marker.bounds_of_cut ht hcut _⟩

/-- A document with a head and a reference whose value stands between blanks. -/
def linkedHead : Text :=
  "<p>\u00E9</p><HEAD lang='de'>\n<link rel=\"c2pa-manifest\" href = ' \u00FC&amp;.c2pa '>".toList

-- The first document is encoded behind a mark, the second by pairs of units.
theorem markers_bound_text_linkedHead :
    (∃ data head, Charset.Codec.utf8Marked.encode linkedHead = .ok data ∧
      headOpening? linkedHead = some head ∧
      Marker.Bounds .utf8Marked linkedHead data ⟨.insertionPoint, 28, 0⟩
        (head.before ++ head.item) []) ∧
    (∃ data tag href, Charset.Codec.utf8Marked.encode linkedHead = .ok data ∧
      referenceIn? linkedHead = some tag ∧ href? tag.item = some href ∧
      Marker.Bounds .utf8Marked linkedHead data ⟨.linkTag, 63, 14⟩
        (tag.before ++ href.lead) href.value) ∧
    ∃ data f, Charset.Codec.utf16.encode Inline.wideBlanks = .ok data ∧
      Base64.decode (Text.trim f.item.body) = .ok [0x41, 0x42] ∧
      Marker.Bounds .utf16 Inline.wideBlanks data ⟨.inlineTag, 106, 8⟩
        (Element.payloadFront f) (Text.trim f.item.body) := by
  have hlinked : Charset.Codec.utf8Marked.Encodes linkedHead := fun _ _ => rfl
  have hwide : Charset.Codec.utf16.Encodes Inline.wideBlanks := fun _ _ => rfl
  obtain ⟨-, hplace, hreference⟩ := markers_bound_text (Charset.Codec.encode_of_encodes hlinked)
  obtain ⟨hpayload, -, -⟩ := markers_bound_text (Charset.Codec.encode_of_encodes hwide)
  refine ⟨?_, ?_, ?_⟩
  · obtain ⟨-, head, hhead, hbounds⟩ := hplace ⟨.insertionPoint, 28, 0⟩
      (eq_ok_of_toOption (by decide +kernel))
    exact ⟨_, head, Charset.Codec.encode_of_encodes hlinked, hhead, hbounds⟩
  · obtain ⟨-, tag, href, htag, hhref, -, hbounds⟩ := hreference
      "\u00FC&.c2pa".toList ⟨.linkTag, 63, 14⟩ (eq_ok_of_toOption (by decide +kernel))
    exact ⟨_, tag, href, Charset.Codec.encode_of_encodes hlinked, htag, hhref, hbounds⟩
  · obtain ⟨-, f, -, hdecode, hbounds⟩ := hpayload [0x41, 0x42] ⟨.inlineTag, 106, 8⟩
      (eq_ok_of_toOption (by decide +kernel))
    exact ⟨_, f, Charset.Codec.encode_of_encodes hwide, hdecode, hbounds⟩

end PageManifest
