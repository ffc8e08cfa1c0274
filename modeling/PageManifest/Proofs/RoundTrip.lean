import PageManifest.Proofs.Scan

/-! # What is embedded is read back

Scanning a document after a payload was embedded reports that payload and the
octets of its text, unless the document ends, at the place for a manifest, inside
an element that was never closed.  There the scan refuses the document.
-/

namespace PageManifest.Inline

open Markup

theorem scan_embed (k : Charset.Codec) (t : Text) (payload octets : Bytes) (hp : payload ≠ [])
    (ht : k.encode t = .ok octets) :
    ((hasElement t = true ∨ Element.hasOpening (front t) = false) →
      ∃ data marker, k.encode (embed t payload) = .ok data ∧
        InlineScan.ofText (.codec k) (embed t payload) = .ok (.manifest payload marker) ∧
        marker.kind = .inlineTag ∧
        data.take marker.offset = k.mark ++ k.body (lead t ++ Element.canonicalOpening) ∧
        (data.drop marker.offset).take marker.length = k.body (Base64.encode payload) ∧
        data.drop marker.stop = k.body (Element.canonicalClosing ++ rest t)) ∧
    (¬ (hasElement t = true ∨ Element.hasOpening (front t) = false) →
      ∃ fault, ∀ charset,
        InlineScan.ofText charset (embed t payload) = .error (.malformedPayload fault)) := by
  have hk : k.Encodes t := (Charset.Codec.encode_eq_ok_iff.mp ht).1
  constructor
  · intro h
    have hopen : Element.hasOpening (lead t) = false := by
      cases hl : Element.hasOpening (lead t) with
      | false => rfl
      | true => exact absurd h ((hasOpening_lead_iff t).mp hl)
    refine ⟨_, _, encode_embed hk payload, ofText_embed hk hopen hp, rfl, ?_, ?_, ?_⟩
    · exact List.take_left
    · rw [List.drop_left, List.take_left]
    · rw [Marker.stop, ← List.drop_drop, List.drop_left, List.drop_left]
  · intro h
    exact ofText_embed_of_hasOpening ((hasOpening_lead_iff t).mpr h) payload

-- In the first document the opening tag runs across the splice, in the second the body does.
theorem scan_embed_unclosed :
    (∃ data marker,
      Charset.Codec.utf16.encode (embed "<p>\u00E9<script \n</body>".toList [0x41]) = .ok data ∧
      InlineScan.ofText (.codec .utf16) (embed "<p>\u00E9<script \n</body>".toList [0x41]) =
        .ok (.manifest [0x41] marker) ∧
      (data.drop marker.offset).take marker.length =
        Charset.Codec.utf16.body (Base64.encode [0x41])) ∧
    (∃ fault, ∀ charset,
      InlineScan.ofText charset
        (embed "<script type='application/c2pa-manifest'></body>".toList [0x41]) =
          .error (.malformedPayload fault)) := by
  constructor
  · have hrun := scan_embed .utf16 "<p>\u00E9<script \n</body>".toList [0x41] _ (by decide) rfl
    obtain ⟨data, marker, hdata, hscan, -, -, hpayload, -⟩ := hrun.1 (.inr (by decide +kernel))
    exact ⟨data, marker, hdata, hscan, hpayload⟩
  · have hrun := scan_embed .utf8 "<script type='application/c2pa-manifest'></body>".toList
      [0x41] _ (by decide) rfl
    exact hrun.2 (by decide +kernel)

end PageManifest.Inline
