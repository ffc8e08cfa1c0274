import PageManifest.Proofs.Targets

/-! # What is inserted as a reference is read back

The inserted document is encoded wherever the document and the target are, since
escaping and placing add characters of ASCII only.  The scan reports the target
without the blanks at its ends, and the octets of the value as it is written.
-/

namespace PageManifest

open Markup

variable {k : Charset.Codec} {t target : Text}

namespace Markup

theorem mem_escapeChar {c d : Char} (h : d ∈ escapeChar c) : d = c ∨ d.toNat < 0x80 := by
  have hentity : ∀ entity : Text, d ∈ entity →
      entity.all (fun c => decide (c.toNat < 0x80)) = true → d = c ∨ d.toNat < 0x80 :=
    fun entity hd hall => .inr (of_decide_eq_true (List.all_eq_true.mp hall d hd))
  unfold escapeChar at h
  split at h
  · exact hentity _ h (by decide)
  · split at h
    · exact hentity _ h (by decide)
    · split at h
      · exact hentity _ h (by decide)
      · split at h
        · exact hentity _ h (by decide)
        · split at h
          · exact hentity _ h (by decide)
          · exact .inl (List.mem_singleton.mp h)

theorem encodes_escape (h : k.Encodes target) : k.Encodes (escape target) := by
  intro d hd
  obtain ⟨c, hc, hd⟩ := List.mem_flatMap.mp hd
  rcases mem_escapeChar hd with rfl | hascii
  · exact h d hc
  · exact k.encodes_of_ascii hascii

theorem encodes_referenceTag (h : k.Encodes target) : k.Encodes (referenceTag target) := by
  rw [referenceTag_eq, Charset.Codec.encodes_append_iff, Charset.Codec.encodes_append_iff]
  exact ⟨k.encodes_of_all_ascii (by decide +kernel), encodes_escape h,
    k.encodes_of_all_ascii (by decide)⟩

end Markup

namespace Sidecar

theorem encodes_newline (k : Charset.Codec) (t : Text) : k.Encodes (newline t) := by
  unfold newline
  split
  · exact k.encodes_of_all_ascii (by decide)
  · split
    · exact k.encodes_of_all_ascii (by decide)
    · exact k.encodes_of_all_ascii (by decide)

/-- Around the reference stand parts of the document, and a line break at most. -/
theorem encodes_front_back (h : k.Encodes t) : k.Encodes (front t) ∧ k.Encodes (back t) := by
  unfold front back
  cases hfound : referenceIn? t with
  | some found =>
      rw [(passed_of_referenceIn? hfound).2, Charset.Codec.encodes_append_iff,
        Charset.Codec.encodes_append_iff] at h
      exact ⟨h.1, h.2.2⟩
  | none =>
      cases hhead : headOpening? t with
      | none => exact ⟨k.encodes_of_all_ascii rfl,
          Charset.Codec.encodes_append_iff.mpr ⟨encodes_newline k t, h⟩⟩
      | some head =>
          have hnewline := encodes_newline k t
          have ht := (headOpening?_cut hhead).1
          rw [ht, Charset.Codec.encodes_append_iff, Charset.Codec.encodes_append_iff] at h
          exact ⟨Charset.Codec.encodes_append_iff.mpr
            ⟨Charset.Codec.encodes_append_iff.mpr ⟨h.1, h.2.1⟩, hnewline⟩, h.2.2⟩

theorem encodes_insertReference (ht : k.Encodes t) (htarget : k.Encodes target) :
    k.Encodes (insertReference t target) := by
  obtain ⟨hfront, hback⟩ := encodes_front_back ht
  rw [insertReference_eq, Charset.Codec.encodes_append_iff, Charset.Codec.encodes_append_iff]
  exact ⟨hfront, encodes_referenceTag htarget, hback⟩

/-- The octets of a document with a reference, cut at the value of its target. -/
theorem encode_insertReference (ht : k.Encodes t) (htarget : k.Encodes target) :
    k.encode (insertReference t target) = .ok (k.mark ++ k.body (front t ++ referenceLead) ++
      (k.body (escape target) ++ k.body ("\">".toList ++ back t))) := by
  rw [Charset.Codec.encode_of_encodes (encodes_insertReference ht htarget), insertReference_eq,
    referenceTag_eq]
  simp only [Charset.Codec.body_append, List.append_assoc]

/--
Wherever a reference is put, the scan reports its target without the blanks at the
ends and marks the octets of the escaped value.  A blank target is no reference.
-/
theorem inserted_reference_reads_back {octets written : Bytes} (ht : k.encode t = .ok octets)
    (htarget : k.encode target = .ok written) :
    insertReference t target =
      front t ++ (referenceLead ++ (escape target ++ ("\">".toList ++ back t))) ∧
    (Text.trim target = [] →
      ReferenceScan.ofText (.codec k) (insertReference t target) = .ok none) ∧
    (Text.trim target ≠ [] → ∃ data marker,
      k.encode (insertReference t target) = .ok data ∧
      ReferenceScan.ofText (.codec k) (insertReference t target) =
        .ok (some ⟨Text.trim target, marker⟩) ∧
      marker.kind = .linkTag ∧
      data.take marker.offset = k.mark ++ k.body (front t ++ referenceLead) ∧
      (data.drop marker.offset).take marker.length = k.body (escape target) ∧
      data.drop marker.stop = k.body ("\">".toList ++ back t)) := by
  have hdocument : k.Encodes t := (Charset.Codec.encode_eq_ok_iff.mp ht).1
  have hvalue : k.Encodes target := (Charset.Codec.encode_eq_ok_iff.mp htarget).1
  have hscan := ofText_insertReference (encodes_insertReference hdocument hvalue)
  refine ⟨?_, ?_, ?_⟩
  · rw [insertReference_eq, referenceTag_eq]
    simp only [List.append_assoc]
  · intro hblank
    rw [hscan, if_pos hblank]
  · intro hsome
    rw [if_neg hsome] at hscan
    refine ⟨_, _, encode_insertReference hdocument hvalue, hscan, rfl, ?_, ?_, ?_⟩
    · exact List.take_left
    · rw [List.drop_left, List.take_left]
    · rw [Marker.stop, ← List.drop_drop, List.drop_left, List.drop_left]

/-- A target with blanks at its ends, all characters that are escaped, and what looks like one. -/
def trickyTarget : Text :=
  "\u2003a&amp;'\"<\u00E9>&#38.c2pa\n".toList

/-- A head inside a link, and a link behind it that is left open. -/
def tangledPage : Text :=
  "\u00E9<link <HEAD\n>\r\n<link ".toList

theorem inserted_reference_reads_back_tangled :
    ∃ data marker,
      Charset.Codec.utf16.encode (insertReference tangledPage trickyTarget) = .ok data ∧
      ReferenceScan.ofText (.codec .utf16) (insertReference tangledPage trickyTarget) =
        .ok (some ⟨Text.trim trickyTarget, marker⟩) ∧
      (data.drop marker.offset).take marker.length =
        Charset.Codec.utf16.body (escape trickyTarget) := by
  have hpage : Charset.Codec.utf16.Encodes tangledPage := fun _ _ => rfl
  have htarget : Charset.Codec.utf16.Encodes trickyTarget := fun _ _ => rfl
  obtain ⟨-, -, hread⟩ := inserted_reference_reads_back (Charset.Codec.encode_of_encodes hpage)
    (Charset.Codec.encode_of_encodes htarget)
  obtain ⟨data, marker, hdata, hscan, -, -, hvalue, -⟩ := hread (by decide +kernel)
  exact ⟨data, marker, hdata, hscan, hvalue⟩

end Sidecar

end PageManifest
