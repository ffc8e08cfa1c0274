import PageManifest.Proofs.Scan

/-! # Documents that hold no payload

A scan that finds no payload text falls back to the place for one, so a stand-in
is embedded exactly in the documents without an element and in those whose first
element is blank.
-/

namespace PageManifest

open Markup

namespace Markup.Element

/-- No payload text is there to be read: without an element, or with a blank first one. -/
def Vacant (t : Text) : Prop :=
  ∀ f, find? t = some f → Text.trim f.item.body = []

theorem vacant_of_none {t : Text} (h : find? t = none) : Vacant t := by
  intro f hf
  rw [h] at hf
  cases hf

end Markup.Element

namespace InlineScan

theorem ofText_of_vacant {t : Text} (h : Element.Vacant t) (charset : Charset) :
    ofText charset t = ofHead charset t := by
  unfold ofText
  cases hf : Element.find? t with
  | none => rfl
  | some f => simp [h f hf]

theorem payload?_of_ofHead {charset : Charset} {t : Text} {scan : InlineScan}
    (h : ofHead charset t = .ok scan) : scan.payload? = none := by
  unfold ofHead at h
  split at h
  · cases h
    rfl
  · split at h
    · cases h
    · cases h
      rfl

/-- A scan without a payload has read no payload text. -/
theorem vacant_of_payload?_none {charset : Charset} {t : Text} {scan : InlineScan}
    (h : ofText charset t = .ok scan) (hscan : scan.payload? = none) : Element.Vacant t := by
  intro f hf
  unfold ofText at h
  simp only [hf] at h
  split at h
  · rename_i hblank
    exact List.isEmpty_iff.mp hblank
  · split at h
    · cases h
    · split at h
      · cases h
      · cases h
        cases hscan

/-- Every text has an encoded form by which its place for a manifest is measured. -/
theorem ofHead_utf8 (t : Text) : ∃ scan, ofHead (.codec .utf8) t = .ok scan := by
  have hall : Charset.Codec.utf8.Encodes t := fun _ _ => rfl
  unfold ofHead
  cases headOpening? t with
  | none => exact ⟨_, rfl⟩
  | some head =>
      obtain ⟨offset, hoffset⟩ :=
        Charset.exists_byteOffset hall (head.before.length + head.item.length)
      simp only [hoffset]
      exact ⟨_, rfl⟩

end InlineScan

namespace Inline

theorem hasPayload_of_vacant {t : Text} (h : Element.Vacant t) : hasPayload t = .ok false := by
  obtain ⟨scan, hscan⟩ := InlineScan.ofHead_utf8 t
  rw [hasPayload, InlineScan.ofText_of_vacant h, hscan]
  simp only [Except.map, InlineScan.payload?_of_ofHead hscan]

theorem withPlaceholder_of_vacant {t : Text} (h : Element.Vacant t) {placeholder : Bytes}
    (hp : placeholder ≠ []) : withPlaceholder t placeholder = .ok (embed t placeholder) := by
  rw [withPlaceholder, hasPayload_of_vacant h]
  simp [hp, Except.map]

/-- A document that holds a payload is its own padded copy. -/
theorem withPlaceholder_of_payload {t : Text} {payload : Bytes} {marker : Marker}
    (h : InlineScan.ofText (.codec .utf8) t = .ok (.manifest payload marker))
    (hpayload : payload ≠ []) {placeholder : Bytes} (hp : placeholder ≠ []) :
    withPlaceholder t placeholder = .ok t := by
  rw [withPlaceholder, hasPayload, h]
  simp [hp, hpayload, Except.map, InlineScan.payload?]

theorem withPlaceholder_of_failure {t : Text} {failure : Failure}
    (h : InlineScan.ofText (.codec .utf8) t = .error failure) {placeholder : Bytes}
    (hp : placeholder ≠ []) : withPlaceholder t placeholder = .error failure := by
  rw [withPlaceholder, hasPayload, h]
  simp [hp, Except.map]

end Inline

end PageManifest
