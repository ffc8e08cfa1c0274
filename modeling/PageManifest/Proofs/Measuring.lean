import PageManifest.Proofs.PayloadText
import PageManifest.Proofs.Resigning

/-! # Which documents can be measured

A document that is to be encoded can be measured unless its first element holds
something else than a payload text, or an opening tag in front of the place for a
manifest would swallow the stand-in.  So measuring fails for a malformed payload or
not at all, and the stand-in is never lost.
-/

namespace PageManifest.Inline

open Markup

variable {k : Charset.Codec} {t : Text} {octets placeholder : Bytes}

/--
What keeps a document from being measured: a body that is neither blank nor a
payload text, or an opening tag that is left without an element.
-/
def Unmeasurable (t : Text) : Prop :=
  (∃ f, Element.find? t = some f ∧ Text.trim f.item.body ≠ [] ∧
    ¬ Base64.IsPayloadText (Text.trim f.item.body)) ∨
  (Element.find? t = none ∧ Element.hasOpening (front t) = true)

theorem hashRegions_of_unmeasurable (h : Unmeasurable t) (hph : placeholder ≠ [])
    (charset : Charset) :
    ∃ fault, hashRegions charset t placeholder = .error (.malformedPayload fault) := by
  rcases h with ⟨f, hf, hne, hforeign⟩ | ⟨hnone, hopen⟩
  · cases hdecode : Base64.decode (Text.trim f.item.body) with
    | ok payload => exact absurd (Base64.exists_decode_iff.mp ⟨payload, hdecode⟩) hforeign
    | error fault =>
        have hscan : ∀ charset, InlineScan.ofText charset t = .error (.malformedPayload fault) := by
          intro charset
          unfold InlineScan.ofText
          simp only [hf, List.isEmpty_iff, hne, if_false, hdecode]
        refine ⟨fault, ?_⟩
        simp only [hashRegions, withPlaceholder_of_failure (hscan _) hph]
  · have hlead : Element.hasOpening (lead t) = true := by
      rw [lead, hnone]
      exact hopen
    obtain ⟨fault, hfault⟩ := hashRegions_embed_of_hasOpening hlead placeholder hph charset
    refine ⟨fault, ?_⟩
    rw [hashRegions_of_vacant (Element.vacant_of_none hnone) hph, hfault]

theorem hashRegions_of_measurable (ht : k.encode t = .ok octets) (h : ¬ Unmeasurable t)
    (hph : placeholder ≠ []) : ∃ regions, hashRegions (.codec k) t placeholder = .ok regions := by
  have hk : k.Encodes t := (Charset.Codec.encode_eq_ok_iff.mp ht).1
  rw [Unmeasurable, not_or] at h
  obtain ⟨hbody, hfront⟩ := h
  -- Without a payload text the stand-in is put in, and nothing in front of it is left open.
  have hpadded : Element.Vacant t → Element.hasOpening (lead t) = false →
      ∃ regions, hashRegions (.codec k) t placeholder = .ok regions := by
    intro hvacant hlead
    obtain ⟨_, regions, -, hregions, -⟩ := hashRegions_embed hk hlead hph hph
    exact ⟨regions, by rw [hashRegions_of_vacant hvacant hph, hregions]⟩
  cases hf : Element.find? t with
  | none =>
      refine hpadded (Element.vacant_of_none hf) ?_
      rw [lead, hf]
      exact Bool.eq_false_iff.mpr fun hopen => hfront ⟨hf, hopen⟩
  | some f =>
      by_cases hne : Text.trim f.item.body = []
      · refine hpadded (fun g hg => ?_) ?_
        · rw [← Option.some.inj (hf.symm.trans hg)]
          exact hne
        · rw [lead, hf]
          exact (Element.front_settled hf).1
      · have htext : Base64.IsPayloadText (Text.trim f.item.body) :=
          Classical.not_not.mp fun hforeign => hbody ⟨f, hf, hne, hforeign⟩
        obtain ⟨old, hold⟩ := Base64.exists_decode_iff.mpr htext
        have hsome : old ≠ [] := by
          rintro rfl
          exact Base64.decode_ne_nil hne hold
        obtain ⟨-, regions, hregions, -⟩ := hashRegions_of_decode ht hf hne hold hsome hph
        exact ⟨regions, hregions⟩

/--
Measuring a document that has an encoded form yields regions, or refuses a
malformed payload, and which of the two is read off the document alone.  The
manifest is never missing behind the stand-in, since a payload text that is not
blank is never read as no octets.
-/
theorem hashRegions_classified (k : Charset.Codec) (t : Text) (octets placeholder : Bytes)
    (ht : k.encode t = .ok octets) (hph : placeholder ≠ []) :
    ((∃ fault, hashRegions (.codec k) t placeholder = .error (.malformedPayload fault)) ↔
      Unmeasurable t) ∧
    ((∃ regions, hashRegions (.codec k) t placeholder = .ok regions) ↔ ¬ Unmeasurable t) ∧
    (∀ failure, hashRegions (.codec k) t placeholder = .error failure →
      failure.category = .payloadMalformed) ∧
    ∀ body, Text.trim body ≠ [] → Base64.decode (Text.trim body) ≠ .ok [] := by
  refine ⟨⟨?_, fun h => hashRegions_of_unmeasurable h hph _⟩,
    ⟨?_, fun h => hashRegions_of_measurable ht h hph⟩, ?_, fun body => Base64.decode_ne_nil⟩
  · rintro ⟨fault, hfault⟩
    refine Classical.not_not.mp fun h => ?_
    obtain ⟨regions, hregions⟩ := hashRegions_of_measurable ht h hph
    rw [hfault] at hregions
    cases hregions
  · rintro ⟨regions, hregions⟩ h
    obtain ⟨fault, hfault⟩ := hashRegions_of_unmeasurable h hph (.codec k)
    rw [hregions] at hfault
    cases hfault
  · intro failure hfailure
    by_cases h : Unmeasurable t
    · obtain ⟨fault, hfault⟩ := hashRegions_of_unmeasurable h hph (.codec k)
      rw [hfailure, Except.error.injEq] at hfault
      rw [hfault]
      rfl
    · obtain ⟨regions, hregions⟩ := hashRegions_of_measurable ht h hph
      rw [hfailure] at hregions
      cases hregions

/-- A document whose first element has too little padding. -/
def shortPadding : Text :=
  "<p>\u00E9</p>\n<SCRIPT type='application/c2pa-manifest'>\u2003QUJDQQ=\n</script></body>".toList

-- The document that is measured holds an element without a payload text.
theorem hashRegions_classified_padding :
    (∃ fault, hashRegions (.codec .utf16) shortPadding [1] = .error (.malformedPayload fault)) ∧
    ∃ regions, hashRegions (.codec .utf16) blankElement [1] = .ok regions := by
  constructor
  · obtain ⟨hmalformed, -⟩ := hashRegions_classified .utf16 shortPadding _ [1] rfl (by decide)
    have hbody : (Element.find? shortPadding).any (fun f => decide (Text.trim f.item.body ≠ [] ∧
        ¬ Base64.IsPayloadText (Text.trim f.item.body))) = true := by decide +kernel
    obtain ⟨f, hf, htext⟩ := (Option.any_eq_true _ _).mp hbody
    exact hmalformed.mpr (.inl ⟨f, hf, of_decide_eq_true htext⟩)
  · obtain ⟨-, hmeasured, -⟩ := hashRegions_classified .utf16 blankElement _ [1] rfl (by decide)
    have hbody : (Element.find? blankElement).any (fun f => decide (Text.trim f.item.body = [])) =
        true := by decide +kernel
    obtain ⟨f, hf, hblank⟩ := (Option.any_eq_true _ _).mp hbody
    refine hmeasured.mpr ?_
    rintro (⟨g, hg, hne, -⟩ | ⟨hnone, -⟩)
    · rw [← Option.some.inj (hf.symm.trans hg)] at hne
      exact hne (of_decide_eq_true hblank)
    · rw [hf] at hnone
      cases hnone

end PageManifest.Inline
