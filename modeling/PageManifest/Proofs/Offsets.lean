import PageManifest.Marker

/-! # Offsets in encoded documents

The encoded form of a text is the mark and the octets of its characters, so where
a part of a text lies in it is read off the lengths of the pieces.
-/

namespace PageManifest

namespace Charset

namespace Codec

/-- A text that has an encoded form. -/
def Encodes (k : Codec) (t : Text) : Prop :=
  ∀ c ∈ t, k.encodes c = true

theorem encodes_of_ascii (k : Codec) {c : Char} (h : c.toNat < 0x80) : k.encodes c = true := by
  cases k with
  | ascii => simpa [encodes] using h
  | latin1 =>
      have hlatin : c.toNat < 0x100 := by omega
      simpa [encodes] using hlatin
  | western => simp [encodes, Western.octet?, h]
  | utf8 => rfl
  | utf8Marked => rfl
  | utf16 => rfl
  | utf16Fixed order => rfl
  | utf32 => rfl
  | utf32Fixed order => rfl

theorem encodes_of_all_ascii (k : Codec) {t : Text}
    (h : t.all (fun c => decide (c.toNat < 0x80)) = true) : k.Encodes t := by
  intro c hc
  exact k.encodes_of_ascii (of_decide_eq_true (List.all_eq_true.mp h c hc))

theorem encodes_append_iff {k : Codec} {s t : Text} :
    k.Encodes (s ++ t) ↔ k.Encodes s ∧ k.Encodes t := by
  simp only [Encodes, List.mem_append]
  constructor
  · intro h
    exact ⟨fun c hc => h c (.inl hc), fun c hc => h c (.inr hc)⟩
  · intro h c hc
    exact hc.elim (h.1 c) (h.2 c)

theorem Encodes.subset {k : Codec} {s t : Text} (h : k.Encodes t) (hs : ∀ c ∈ s, c ∈ t) :
    k.Encodes s :=
  fun c hc => h c (hs c hc)

theorem encode_of_encodes {k : Codec} {t : Text} (h : k.Encodes t) :
    k.encode t = .ok (k.mark ++ k.body t) :=
  encode_eq_ok_iff.mpr ⟨h, rfl⟩

end Codec

theorem encode_of_codec {k : Codec} {t : Text} {bytes : Bytes} (h : k.encode t = .ok bytes) :
    (codec k).encode t = .ok bytes := by
  rw [encode, h]
  rfl

/-- The offset of a position is the length of the encoded text in front of it. -/
theorem byteOffset_of_encode_take {charset : Charset} {t : Text} {bytes : Bytes} {position : Nat}
    (h : charset.encode (t.take position) = .ok bytes) :
    charset.byteOffset t position = .ok bytes.length := by
  rw [byteOffset, Text.upTo_natCast, h]
  rfl

/-- A position counts the mark and the octets of the characters in front of it. -/
theorem byteOffset_append {k : Codec} {s : Text} (hs : k.Encodes s) (t : Text) :
    (codec k).byteOffset (s ++ t) (s.length : Nat) = .ok (k.mark ++ k.body s).length := by
  apply byteOffset_of_encode_take
  rw [List.take_left]
  exact encode_of_codec (Codec.encode_of_encodes hs)

/-- A text that has an encoded form. -/
def Encodable (charset : Charset) (t : Text) : Prop :=
  ∃ bytes, charset.encode t = .ok bytes

/-- A part of a text can be marked behind what stands in front of it: both its ends are measured. -/
def Marks (charset : Charset) (front part : Text) : Prop :=
  charset.Encodable front ∧ charset.Encodable (front ++ part)

theorem encodable_codec {k : Codec} {t : Text} (h : k.Encodes t) : (codec k).Encodable t :=
  ⟨_, encode_of_codec (Codec.encode_of_encodes h)⟩

theorem marks_codec {k : Codec} {front part : Text} (h : k.Encodes (front ++ part)) :
    (codec k).Marks front part :=
  ⟨encodable_codec (Codec.encodes_append_iff.mp h).1, encodable_codec h⟩

/-- A position is measured if the text in front of it has an encoded form. -/
theorem exists_byteOffset_iff (charset : Charset) (t : Text) (position : Nat) :
    (∃ offset, charset.byteOffset t position = .ok offset) ↔
      charset.Encodable (t.take position) := by
  rw [byteOffset, Text.upTo_natCast, Encodable]
  cases charset.encode (t.take position) with
  | ok bytes => exact ⟨fun _ => ⟨bytes, rfl⟩, fun _ => ⟨bytes.length, rfl⟩⟩
  | error fault => exact ⟨nofun, nofun⟩

theorem exists_byteOffset {k : Codec} {t : Text} (h : k.Encodes t) (position : Nat) :
    ∃ offset, (codec k).byteOffset t position = .ok offset := by
  have hfront : k.Encodes (t.take position) := h.subset fun _ hc => List.mem_of_mem_take hc
  exact (exists_byteOffset_iff _ _ _).mpr (encodable_codec hfront)

end Charset

/-- A span is marked just if both its ends are measured. -/
theorem Marker.exists_ofSpan_iff (kind : MarkerKind) (charset : Charset)
    (front part back : Text) :
    (∃ marker, Marker.ofSpan kind charset (front ++ (part ++ back)) front.length
      (front.length + part.length) = .ok marker) ↔ charset.Marks front part := by
  have hstart := charset.exists_byteOffset_iff (front ++ (part ++ back)) front.length
  have hstop := charset.exists_byteOffset_iff (front ++ (part ++ back))
    (front.length + part.length)
  rw [List.take_left] at hstart
  rw [← List.append_assoc, ← List.length_append, List.take_left, List.append_assoc,
    List.length_append] at hstop
  rw [Charset.Marks, ← hstart, ← hstop, Marker.ofSpan]
  constructor
  · rintro ⟨marker, hmarker⟩
    split at hmarker
    · cases hmarker
    · rename_i offset hoffset
      split at hmarker
      · cases hmarker
      · rename_i finish hfinish
        exact ⟨⟨offset, hoffset⟩, finish, hfinish⟩
  · rintro ⟨⟨offset, hoffset⟩, finish, hfinish⟩
    rw [hoffset, hfinish]
    exact ⟨_, rfl⟩

theorem Marker.ofSpan_append {k : Charset.Codec} {s part : Text} (hs : k.Encodes s)
    (hpart : k.Encodes part) (kind : MarkerKind) (t : Text) :
    Marker.ofSpan kind (.codec k) (s ++ (part ++ t)) s.length (s.length + part.length) =
      .ok ⟨kind, (k.mark ++ k.body s).length, (k.body part).length⟩ := by
  have hend := Charset.byteOffset_append
    (Charset.Codec.encodes_append_iff.mpr ⟨hs, hpart⟩) t
  rw [List.append_assoc, List.length_append] at hend
  rw [Marker.ofSpan, Charset.byteOffset_append hs]
  simp only [hend, Charset.Codec.body_append, List.length_append]
  congr 2
  omega

end PageManifest
