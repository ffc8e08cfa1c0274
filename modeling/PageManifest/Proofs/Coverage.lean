import PageManifest.Platform.Bundled
import PageManifest.Proofs.Vacancy

/-! # What a hash covers

The regions of a document with a payload are the octets in front of the payload
text, that text, and the octets behind it.  So the hash of a document that is yet
to be signed does not depend on the stand-in or the payload that is put in.
-/

namespace PageManifest

open Markup

namespace Region

theorem slice_natCast (data : Bytes) (lo hi : Nat) :
    slice data (lo : Int) (hi : Int) = (data.take hi).drop lo := by
  have hlo : (0 : Int) ≤ lo := Int.natCast_nonneg lo
  have hhi : (0 : Int) ≤ hi := Int.natCast_nonneg hi
  simp only [slice, hlo, hhi, if_true, Int.toNat_natCast]

theorem slice_front (first rest : Bytes) :
    slice (first ++ rest) 0 (first.length : Nat) = first := by
  have hslice := slice_natCast (first ++ rest) 0 first.length
  rw [List.drop_zero, List.take_left] at hslice
  exact hslice

theorem slice_back (front last : Bytes) :
    slice (front ++ last) (front.length : Nat) ((front ++ last).length : Nat) = last := by
  rw [slice_natCast, List.take_length, List.drop_left]

/-- The digest of octets by the name of an algorithm. -/
def digestOf [Platform] (octets : Bytes) (algorithm : String) : Except Fault String :=
  match Digest.method? algorithm with
  | none => .error (.unknownAlgorithm algorithm)
  | some method => digestBy method octets

/-- There are two included regions, and these are their octets. -/
structure Covers (data : Bytes) (regions : List Region) (first last : Bytes) : Prop where
  ends : ∃ r s, ofKind .included regions = [r, s] ∧ slice data r.offset r.stop = first ∧
    slice data s.offset s.stop = last
  octets : includedOctets data regions = .ok (first ++ last)

theorem Covers.digestIncluded_eq [Platform] {data first last : Bytes} {regions : List Region}
    (h : Covers data regions first last) (algorithm : String) :
    digestIncluded data regions algorithm = digestOf (first ++ last) algorithm := by
  cases hmethod : Digest.method? algorithm with
  | none => simp only [digestIncluded, digestOf, hmethod]
  | some method => simp only [digestIncluded, digestOf, hmethod, h.octets]

theorem covers_regionsAround (first middle last : Bytes) :
    Covers (first ++ (middle ++ last)) (Inline.regionsAround first.length
      (first.length + middle.length) (first ++ (middle ++ last)).length) first last := by
  have hfront := slice_front first (middle ++ last)
  have hback := slice_back (first ++ middle) last
  have hmiddle : (first ++ middle).length = first.length + middle.length := List.length_append
  rw [List.append_assoc, hmiddle] at hback
  have htotal : ((first.length + middle.length : Nat) : Int) +
      ((first ++ (middle ++ last)).length - (first.length + middle.length) : Nat) =
        ((first ++ (middle ++ last)).length : Nat) := by
    simp only [List.length_append]
    omega
  constructor
  · refine ⟨_, _, rfl, ?_, ?_⟩
    · rw [stop, Int.zero_add]
      exact hfront
    · rw [stop, htotal]
      exact hback
  · have hfits : ¬ ((0 : Int) < 0 ∨ ((first ++ (middle ++ last)).length : Int) <
        (first.length : Nat)) := by
      simp only [List.length_append]
      omega
    have hfits' : ¬ (((first.length + middle.length : Nat) : Int) < 0 ∨
        ((first ++ (middle ++ last)).length : Int) <
          ((first ++ (middle ++ last)).length : Nat)) := by
      omega
    simp only [Inline.regionsAround, includedOctets, stop, Int.zero_add, if_true, htotal,
      if_neg hfits, if_neg hfits', hfront, hback, reduceCtorEq, if_false, Except.map,
      List.append_nil]

end Region

namespace Inline

section Embedded

variable {t : Text} {payload placeholder : Bytes}

theorem withPlaceholder_embed (hopen : Element.hasOpening (lead t) = false) (hp : payload ≠ [])
    (hph : placeholder ≠ []) :
    withPlaceholder (embed t payload) placeholder = .ok (embed t payload) :=
  withPlaceholder_of_payload (ofText_embed (fun _ _ => rfl) hopen hp) hp hph

/-- The regions of a document with a payload in it, and what they cover. -/
theorem hashRegions_embed {k : Charset.Codec} (ht : k.Encodes t)
    (hopen : Element.hasOpening (lead t) = false) (hp : payload ≠ []) (hph : placeholder ≠ []) :
    ∃ data regions, k.encode (embed t payload) = .ok data ∧
      hashRegions (.codec k) (embed t payload) placeholder = .ok regions ∧
      Region.Covers data regions (k.mark ++ k.body (lead t ++ Element.canonicalOpening))
        (k.body (Element.canonicalClosing ++ rest t)) := by
  refine ⟨_, _, encode_embed ht payload, ?_, Region.covers_regionsAround _ _ _⟩
  simp only [hashRegions, withPlaceholder_embed hopen hp hph, ofText_embed ht hopen hp,
    Charset.encode_of_codec (encode_embed ht payload), Marker.stop]

theorem hashRegions_embed_of_hasOpening (hopen : Element.hasOpening (lead t) = true)
    (payload : Bytes) (hph : placeholder ≠ []) (charset : Charset) :
    ∃ fault, hashRegions charset (embed t payload) placeholder =
      .error (.malformedPayload fault) := by
  obtain ⟨fault, hfault⟩ := ofText_embed_of_hasOpening hopen payload
  refine ⟨fault, ?_⟩
  simp only [hashRegions, withPlaceholder_of_failure (hfault _) hph]

/-- A document without a payload is measured as if the stand-in were embedded. -/
theorem hashRegions_of_vacant (h : Element.Vacant t) (hph : placeholder ≠ [])
    (charset : Charset) :
    hashRegions charset t placeholder = hashRegions charset (embed t placeholder) placeholder := by
  have hpadded := withPlaceholder_of_vacant h hph
  cases hopen : Element.hasOpening (lead t) with
  | false => rw [hashRegions, hashRegions, hpadded, withPlaceholder_embed hopen hph hph]
  | true =>
      obtain ⟨fault, hfault⟩ := ofText_embed_of_hasOpening hopen placeholder
      simp only [hashRegions, hpadded, withPlaceholder_of_failure (hfault _) hph, hfault]

end Embedded

/--
The hash of a document without a payload is settled before it is signed: either
the document cannot be measured at all, or what is covered is the same for the
document with a stand-in and for every signed copy.
-/
theorem hash_settled_before_signing [Platform] (k : Charset.Codec) (t : Text) (octets : Bytes)
    (scan : InlineScan) (ht : k.encode t = .ok octets)
    (hscan : InlineScan.ofText (.codec k) t = .ok scan) (hnone : scan.payload? = none) :
    (∀ placeholder payload, placeholder ≠ [] → payload ≠ [] → ∃ fault fault',
      hashRegions (.codec k) t placeholder = .error (.malformedPayload fault) ∧
      hashRegions (.codec k) (embed t payload) placeholder = .error (.malformedPayload fault')) ∨
    ∃ first last, ∀ placeholder payload, placeholder ≠ [] → payload ≠ [] →
      ∃ padded data data' regions regions',
        withPlaceholder t placeholder = .ok padded ∧
        k.encode padded = .ok data ∧ k.encode (embed t payload) = .ok data' ∧
        hashRegions (.codec k) t placeholder = .ok regions ∧
        hashRegions (.codec k) (embed t payload) placeholder = .ok regions' ∧
        Region.Covers data regions first last ∧ Region.Covers data' regions' first last ∧
        ∀ algorithm,
          Region.digestIncluded data regions algorithm =
            Region.digestOf (first ++ last) algorithm ∧
          Region.digestIncluded data' regions' algorithm =
            Region.digestOf (first ++ last) algorithm := by
  have hvacant := InlineScan.vacant_of_payload?_none hscan hnone
  have hk : k.Encodes t := (Charset.Codec.encode_eq_ok_iff.mp ht).1
  cases hopen : Element.hasOpening (lead t) with
  | true =>
      left
      intro placeholder payload hph _
      rw [hashRegions_of_vacant hvacant hph]
      obtain ⟨fault, hfault⟩ := hashRegions_embed_of_hasOpening hopen placeholder hph (.codec k)
      obtain ⟨fault', hfault'⟩ := hashRegions_embed_of_hasOpening hopen payload hph (.codec k)
      exact ⟨fault, fault', hfault, hfault'⟩
  | false =>
      right
      refine ⟨k.mark ++ k.body (lead t ++ Element.canonicalOpening),
        k.body (Element.canonicalClosing ++ rest t), ?_⟩
      intro placeholder payload hph hp
      rw [hashRegions_of_vacant hvacant hph, withPlaceholder_of_vacant hvacant hph]
      obtain ⟨data, regions, hdata, hregions, hcovers⟩ := hashRegions_embed hk hopen hph hph
      obtain ⟨data', regions', hdata', hregions', hcovers'⟩ := hashRegions_embed hk hopen hp hph
      refine ⟨_, data, data', regions, regions', rfl, hdata, hdata', hregions, hregions', hcovers,
        hcovers', ?_⟩
      intro algorithm
      exact ⟨hcovers.digestIncluded_eq algorithm, hcovers'.digestIncluded_eq algorithm⟩

/-- A document whose element is blank. -/
def blankElement : Text :=
  "<p>\u00E9</p> <script type=\"application/c2pa-manifest\"> </script>\n</body>".toList

-- The stand-in and the payload differ in length, and the encoded document begins with a mark.
attribute [local instance] Platform.bundled in
theorem hash_settled_blankElement : ∃ padded data data' regions regions',
    withPlaceholder blankElement [1] = .ok padded ∧
      Charset.Codec.utf16.encode padded = .ok data ∧
      Charset.Codec.utf16.encode (embed blankElement [2, 3, 4, 5]) = .ok data' ∧
      hashRegions (.codec .utf16) blankElement [1] = .ok regions ∧
      hashRegions (.codec .utf16) (embed blankElement [2, 3, 4, 5]) [1] = .ok regions' ∧
      Region.digestIncluded data regions "sha256" =
        Region.digestIncluded data' regions' "sha256" := by
  have hscan : InlineScan.ofText (.codec .utf16) blankElement = .ok .nothing := rfl
  rcases hash_settled_before_signing .utf16 blankElement _ .nothing rfl hscan rfl with
    hrefused | ⟨first, last, hcovered⟩
  · obtain ⟨fault, fault', hfault, -⟩ := hrefused [1] [1] (by decide) (by decide)
    have hmeasured : (hashRegions (.codec .utf16) blankElement [1]).isOk = true := by
      decide +kernel
    rw [hfault] at hmeasured
    cases hmeasured
  · obtain ⟨padded, data, data', regions, regions', hpadded, hdata, hdata', hregions, hregions',
      -, -, hdigest⟩ := hcovered [1] [2, 3, 4, 5] (by decide) (by decide)
    exact ⟨padded, data, data', regions, regions', hpadded, hdata, hdata', hregions, hregions',
      (hdigest "sha256").1.trans (hdigest "sha256").2.symm⟩

end Inline

end PageManifest
