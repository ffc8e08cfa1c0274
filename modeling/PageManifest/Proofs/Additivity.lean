import PageManifest.Proofs.Coding

/-! # Offsets add up

A coding writes its mark once, in front of the whole text, and behind it one
character after the other.  So a joined text is encoded as its first part with the
unmarked octets of the second behind it, and the offsets of two positions cut out
of a document the octets of the text between them.
-/

namespace PageManifest.Charset

namespace Codec

/-- The coding that writes the same octets without a mark in front. -/
def unmarked : Codec → Codec
  | utf8Marked => utf8
  | utf16 => utf16Fixed .little
  | utf32 => utf32Fixed .little
  | k => k

variable {k : Codec} {s t : Text} {bytes : Bytes}

@[simp] theorem mark_unmarked (k : Codec) : k.unmarked.mark = [] := by
  cases k <;> rfl

@[simp] theorem octets_unmarked (k : Codec) : k.unmarked.octets = k.octets := by
  cases k <;> rfl

@[simp] theorem encodes_unmarked (k : Codec) : k.unmarked.encodes = k.encodes := by
  cases k <;> rfl

theorem encode_unmarked_eq_ok_iff :
    k.unmarked.encode t = .ok bytes ↔ k.Encodes t ∧ bytes = k.body t := by
  simp only [encode_eq_ok_iff, mark_unmarked, encodes_unmarked, body, octets_unmarked,
    List.nil_append, Encodes]

/-- A joined text is encoded part by part, and the mark stands in front of the first one only. -/
theorem encode_append_eq_ok_iff : k.encode (s ++ t) = .ok bytes ↔
    ∃ front back, k.encode s = .ok front ∧ k.unmarked.encode t = .ok back ∧
      bytes = front ++ back := by
  constructor
  · intro h
    obtain ⟨hall, rfl⟩ := encode_eq_ok_iff.mp h
    obtain ⟨hs, ht⟩ := encodes_append_iff.mp hall
    refine ⟨k.mark ++ k.body s, k.body t, encode_of_encodes hs,
      encode_unmarked_eq_ok_iff.mpr ⟨ht, rfl⟩, ?_⟩
    rw [body_append, List.append_assoc]
  · rintro ⟨front, back, hfront, hback, rfl⟩
    obtain ⟨hs, rfl⟩ := encode_eq_ok_iff.mp hfront
    obtain ⟨ht, rfl⟩ := encode_unmarked_eq_ok_iff.mp hback
    rw [encode_of_encodes (encodes_append_iff.mpr ⟨hs, ht⟩), body_append, List.append_assoc]

end Codec

variable {k : Codec} {s t : Text} {data : Bytes}

/--
From the offset `lo` up to the offset `hi` of an encoded document lie the octets of
a part of its text: they are what the part is encoded as without a mark, and they
are read back as that part.
-/
structure CutsOut (k : Codec) (data : Bytes) (lo hi : Nat) (part : Text) (octets : Bytes) :
    Prop where
  encoded : k.unmarked.encode part = .ok octets
  decoded : k.unmarked.decode octets = .ok part
  ordered : lo ≤ hi ∧ hi ≤ data.length
  length : hi - lo = octets.length
  slice : (data.take hi).drop lo = octets

theorem cutsOut_append {front octets back : Bytes} {part : Text}
    (h : k.unmarked.encode part = .ok octets) :
    CutsOut k (front ++ octets ++ back) front.length (front ++ octets).length part octets := by
  have hstop : (front ++ octets).length = front.length + octets.length := List.length_append
  refine ⟨h, Codec.decode_of_encode h, ⟨?_, ?_⟩, ?_, ?_⟩
  · omega
  · exact (List.prefix_append (front ++ octets) back).length_le
  · omega
  · rw [List.take_left, List.drop_left]

/--
Offsets are additive: between those of two positions lie the unmarked octets of the
text between the positions, so they never decrease, and the last one is the length
of the document.  A position beyond the text stands for its end.
-/
theorem byteOffsets_additive (h : (codec k).encode t = .ok data) :
    (codec k).byteOffset t t.length = .ok data.length ∧
      ∀ i j : Nat, i ≤ j → ∃ lo hi octets,
        (codec k).byteOffset t i = .ok lo ∧ (codec k).byteOffset t j = .ok hi ∧
          CutsOut k data lo hi ((t.take j).drop i) octets := by
  constructor
  · exact byteOffset_of_encode_take (by rwa [List.take_length])
  · intro i j hij
    -- The text up to the later position is split again at the earlier one.
    rw [encode_codec_eq_ok_iff, ← List.take_append_drop j t] at h
    obtain ⟨upper, back, hupper, -, rfl⟩ := Codec.encode_append_eq_ok_iff.mp h
    have hj := byteOffset_of_encode_take (encode_of_codec hupper)
    have htake : (t.take j).take i = t.take i := by
      rw [List.take_take, Nat.min_eq_left hij]
    rw [← List.take_append_drop i (t.take j), htake] at hupper
    obtain ⟨front, octets, hfront, hoctets, rfl⟩ := Codec.encode_append_eq_ok_iff.mp hupper
    exact ⟨_, _, octets, byteOffset_of_encode_take (encode_of_codec hfront), hj,
      cutsOut_append hoctets⟩

/-- Characters of one, two, three and four octets in UTF-8. -/
def mixedWidths : Text :=
  "z\u00A2\u20AC😀".toList

-- In UTF-16 the last character is a pair of units.
theorem byteOffsets_additive_mixedWidths :
    (∃ data, (codec .utf8Marked).encode mixedWidths = .ok data ∧
      (codec .utf8Marked).byteOffset mixedWidths 4 = .ok data.length ∧
      CutsOut .utf8Marked data 4 9 ['\u00A2', '\u20AC'] [0xc2, 0xa2, 0xe2, 0x82, 0xac]) ∧
    ∃ data, (codec .utf16).encode mixedWidths = .ok data ∧
      CutsOut .utf16 data 8 12 ['😀'] [0x3d, 0xd8, 0x00, 0xde] := by
  have hutf8 : (codec .utf8Marked).encode mixedWidths = .ok [0xef, 0xbb, 0xbf, 0x7a, 0xc2, 0xa2,
    0xe2, 0x82, 0xac, 0xf0, 0x9f, 0x98, 0x80] := by rfl
  have hutf16 : (codec .utf16).encode mixedWidths = .ok [0xff, 0xfe, 0x7a, 0x00, 0xa2, 0x00,
    0xac, 0x20, 0x3d, 0xd8, 0x00, 0xde] := by rfl
  obtain ⟨hend, hmiddle⟩ := byteOffsets_additive hutf8
  obtain ⟨-, hpair⟩ := byteOffsets_additive hutf16
  constructor
  · obtain ⟨lo, hi, octets, hlo, hhi, hcut⟩ := hmiddle 1 3 (by decide)
    cases hlo
    cases hhi
    cases hcut.encoded
    exact ⟨_, hutf8, hend, hcut⟩
  · obtain ⟨lo, hi, octets, hlo, hhi, hcut⟩ := hpair 3 4 (by decide)
    cases hlo
    cases hhi
    cases hcut.encoded
    exact ⟨_, hutf16, hcut⟩

end PageManifest.Charset
