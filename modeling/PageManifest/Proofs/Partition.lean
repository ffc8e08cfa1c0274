import PageManifest.Proofs.Coding
import PageManifest.Proofs.Coverage

/-! # Regions cut out the payload text

A document that can be measured falls into the octets in front of the payload text
of its first element, that text, and the octets behind it.  A mark counts to the
front.
-/

namespace PageManifest

open Markup

/-- What a computation yields can be compared where its faults cannot. -/
theorem eq_ok_of_toOption {ε α : Type} {r : Except ε α} {a : α} (h : r.toOption = some a) :
    r = .ok a := by
  cases r with
  | error fault => cases h
  | ok b => exact congrArg _ (Option.some.inj h)

theorem exists_error_of_toOption {ε α : Type} {r : Except ε α} (h : r.toOption = none) :
    ∃ fault, r = .error fault := by
  cases r with
  | error fault => exact ⟨fault, rfl⟩
  | ok a => cases h

namespace Text

/-- The blanks that trimming drops from the start. -/
def leadingBlanks (t : Text) : Text :=
  t.takeWhile isBlank

/-- The blanks that trimming then drops from the end. -/
def trailingBlanks (t : Text) : Text :=
  (trimStart t).drop (trim t).length

theorem leadingBlanks_append_trimStart (t : Text) : leadingBlanks t ++ trimStart t = t :=
  List.takeWhile_append_dropWhile

theorem trim_append_trailingBlanks (t : Text) : trim t ++ trailingBlanks t = trimStart t := by
  obtain ⟨blanks, hcut, -⟩ := trimEnd_append_blanks (trimStart t)
  have hdrop : trailingBlanks t = blanks := by
    rw [trailingBlanks, hcut]
    exact List.drop_left
  rw [hdrop]
  exact hcut.symm

theorem length_leadingBlanks (t : Text) :
    (leadingBlanks t).length = t.length - (trimStart t).length := by
  have hlen := congrArg List.length (leadingBlanks_append_trimStart t)
  rw [List.length_append] at hlen
  omega

end Text

theorem Base64.toNat_lt_of_decode {t : Text} {payload : Bytes} (h : decode t = .ok payload) :
    ∀ c ∈ t, c.toNat < 0x80 := by
  intro c hc
  unfold decode at h
  split at h
  · cases h
  · rename_i hascii
    refine Nat.lt_of_not_le fun hwide => hascii ?_
    exact List.any_eq_true.mpr ⟨c, hc, decide_eq_true hwide⟩

namespace Markup.Element

/-- What stands in front of the payload text of an element. -/
def payloadFront (f : Text.Found Element) : Text :=
  f.before ++ (f.item.opening ++ Text.leadingBlanks f.item.body)

/-- What stands behind the payload text of an element. -/
def payloadBack (f : Text.Found Element) : Text :=
  Text.trailingBlanks f.item.body ++ (f.item.closing ++ f.after)

theorem payload_cut {t : Text} {f : Text.Found Element} (hf : find? t = some f) :
    t = payloadFront f ++ (Text.trim f.item.body ++ payloadBack f) := by
  have hbody : f.item.body = Text.leadingBlanks f.item.body ++
      (Text.trim f.item.body ++ Text.trailingBlanks f.item.body) := by
    rw [Text.trim_append_trailingBlanks, Text.leadingBlanks_append_trimStart]
  calc
    t = f.before ++ (f.item.text ++ f.after) := (find?_eq_some_iff.mp hf).1
    _ = f.before ++ (f.item.opening ++ (f.item.body ++ (f.item.closing ++ f.after))) := by
        simp only [text, List.append_assoc]
    _ = f.before ++ (f.item.opening ++ (Text.leadingBlanks f.item.body ++
          (Text.trim f.item.body ++ Text.trailingBlanks f.item.body) ++
            (f.item.closing ++ f.after))) := by rw [← hbody]
    _ = _ := by simp only [payloadFront, payloadBack, List.append_assoc]

end Markup.Element

namespace InlineScan

/-- A payload is reported for the first element only, and only from its trimmed body. -/
theorem exists_of_ofText {charset : Charset} {t : Text} {payload : Bytes} {marker : Marker}
    (h : ofText charset t = .ok (.manifest payload marker)) :
    ∃ f, Element.find? t = some f ∧ Text.trim f.item.body ≠ [] ∧
      Base64.decode (Text.trim f.item.body) = .ok payload := by
  have hhead : ofHead charset t ≠ .ok (.manifest payload marker) := by
    intro hnone
    have hpayload := payload?_of_ofHead hnone
    cases hpayload
  unfold ofText at h
  split at h
  · exact absurd h hhead
  · rename_i f hf
    refine ⟨f, hf, ?_⟩
    by_cases hblank : Text.trim f.item.body = []
    · simp only [List.isEmpty_iff, hblank, if_true] at h
      exact absurd h hhead
    · simp only [List.isEmpty_iff, hblank, if_false] at h
      split at h
      · cases h
      · rename_i read hread
        split at h
        · cases h
        · cases h
          exact ⟨hblank, hread⟩

/-- The marker of a payload bounds the octets of its text. -/
theorem ofText_of_decode {k : Charset.Codec} {t : Text} {f : Text.Found Element} {payload : Bytes}
    (hk : k.Encodes t) (hf : Element.find? t = some f) (hne : Text.trim f.item.body ≠ [])
    (hdecode : Base64.decode (Text.trim f.item.body) = .ok payload) :
    ofText (.codec k) t = .ok (.manifest payload
      ⟨.inlineTag, (k.mark ++ k.body (Element.payloadFront f)).length,
        (k.body (Text.trim f.item.body)).length⟩) := by
  have hcut := Element.payload_cut hf
  rw [hcut, Charset.Codec.encodes_append_iff, Charset.Codec.encodes_append_iff] at hk
  have hspan := Marker.ofSpan_append hk.1 hk.2.1 .inlineTag (Element.payloadBack f)
  have hstart : f.before.length + f.item.opening.length +
      (f.item.body.length - (Text.trimStart f.item.body).length) =
        (Element.payloadFront f).length := by
    rw [Element.payloadFront, List.length_append, List.length_append, Text.length_leadingBlanks]
    omega
  rw [← hcut] at hspan
  unfold ofText
  simp only [hf, List.isEmpty_iff, hne, if_false, hdecode, hstart]
  rw [hspan]

end InlineScan

namespace Region

theorem checkPartition_regionsAround {start stop total : Nat} (h : start ≤ stop)
    (h' : stop ≤ total) :
    checkPartition (Inline.regionsAround start stop total) total = .ok () := by
  have hlength : ¬ ((stop : Int) - start < 0) := by omega
  have hend : (start : Int) + (stop - start) = stop := by omega
  have htotal : (stop : Int) + (total - stop : Nat) = total := by omega
  simp only [checkPartition, checkFrom, Inline.regionsAround, Region.stop, Int.zero_add, hend,
    htotal, hlength, if_true, if_false, Int.lt_irrefl]
  rfl

theorem slice_middle (first middle last : Bytes) :
    slice (first ++ (middle ++ last)) (first.length : Nat)
      ((first.length + middle.length : Nat)) = middle := by
  rw [slice_natCast, ← List.append_assoc, ← List.length_append, List.take_left, List.drop_left]

end Region

namespace Inline

/--
Three regions of an encoded document: the payload text of the first element is
left out, and whatever stands in front of it and behind it is covered.
-/
structure Isolates (k : Charset.Codec) (t : Text) (data : Bytes) (regions : List Region)
    (f : Text.Found Element) (payload : Bytes) : Prop where
  first : Element.find? t = some f
  scanned : ∃ marker, InlineScan.ofText (.codec k) t = .ok (.manifest payload marker)
  decoded : Base64.decode (Text.trim f.item.body) = .ok payload
  partitioned : Region.checkPartition regions data.length = .ok ()
  layout : ∃ start stop : Nat,
    regions = [⟨0, start, .included⟩, ⟨start, (stop : Int) - start, .excluded⟩,
      ⟨stop, (data.length : Int) - stop, .included⟩] ∧
    Region.slice data start stop = k.body (Text.trim f.item.body) ∧
    k.mark <+: Region.slice data 0 start
  notEmpty : k.body (Text.trim f.item.body) ≠ []

variable {k : Charset.Codec} {t : Text} {data payload placeholder : Bytes} {regions : List Region}

/-- Where measuring succeeds, the padded copy has a payload and the regions lie around it. -/
theorem exists_of_hashRegions {charset : Charset}
    (h : hashRegions charset t placeholder = .ok regions) : ∃ padded payload marker data,
      withPlaceholder t placeholder = .ok padded ∧
      InlineScan.ofText charset padded = .ok (.manifest payload marker) ∧
      charset.encode padded = .ok data ∧
      regions = regionsAround marker.offset marker.stop data.length := by
  unfold hashRegions at h
  split at h
  · cases h
  · rename_i padded hpadded
    split at h
    · cases h
    · rename_i payload marker hscan
      split at h
      · cases h
      · rename_i data hdata
        cases h
        exact ⟨padded, payload, marker, data, hpadded, hscan, hdata, rfl⟩
    · cases h

theorem isolates_regionsAround {f : Text.Found Element} (ht : k.encode t = .ok data)
    (hf : Element.find? t = some f) (hne : Text.trim f.item.body ≠ [])
    (hdecode : Base64.decode (Text.trim f.item.body) = .ok payload) {start stop : Nat}
    (hstart : start = (k.mark ++ k.body (Element.payloadFront f)).length)
    (hstop : stop = start + (k.body (Text.trim f.item.body)).length) :
    Isolates k t data (regionsAround start stop data.length) f payload := by
  obtain ⟨hall, hdata⟩ := Charset.Codec.encode_eq_ok_iff.mp ht
  have hcut : data = k.mark ++ k.body (Element.payloadFront f) ++
      (k.body (Text.trim f.item.body) ++ k.body (Element.payloadBack f)) := by
    rw [hdata, List.append_assoc, ← Charset.Codec.body_append, ← Charset.Codec.body_append,
      ← Element.payload_cut hf]
  have hlen := congrArg List.length hcut
  rw [List.length_append, ← hstart, List.length_append] at hlen
  have htext : k.Encodes (Text.trim f.item.body) :=
    fun c hc => k.encodes_of_ascii (Base64.toNat_lt_of_decode hdecode c hc)
  refine ⟨hf, ⟨_, InlineScan.ofText_of_decode hall hf hne hdecode⟩, hdecode, ?_, ?_,
    Charset.Codec.body_ne_nil htext hne⟩
  · exact Region.checkPartition_regionsAround (by omega) (by omega)
  · refine ⟨start, stop, ?_, ?_, ?_⟩
    · have hclamp : ((data.length - stop : Nat) : Int) = (data.length : Int) - stop := by omega
      rw [regionsAround, hclamp]
    · rw [hcut, hstop, hstart]
      exact Region.slice_middle _ _ _
    · rw [hcut, hstart]
      have hfront := Region.slice_front (k.mark ++ k.body (Element.payloadFront f))
        (k.body (Text.trim f.item.body) ++ k.body (Element.payloadBack f))
      exact ⟨k.body (Element.payloadFront f), hfront.symm⟩

/--
Measuring partitions the padded copy of a document and leaves out exactly the
octets of the payload text; a mark is part of what is covered first.
-/
theorem hashRegions_isolates (h : hashRegions (.codec k) t placeholder = .ok regions) :
    ∃ padded data f payload, withPlaceholder t placeholder = .ok padded ∧
      k.encode padded = .ok data ∧ Isolates k padded data regions f payload := by
  obtain ⟨padded, payload, marker, data, hpadded, hscan, hencode, rfl⟩ := exists_of_hashRegions h
  have hdata := Charset.encode_codec_eq_ok_iff.mp hencode
  have hall := (Charset.Codec.encode_eq_ok_iff.mp hdata).1
  obtain ⟨f, hf, hne, hdecode⟩ := InlineScan.exists_of_ofText hscan
  rw [InlineScan.ofText_of_decode hall hf hne hdecode] at hscan
  cases hscan
  exact ⟨padded, data, f, payload, hpadded, hdata,
    isolates_regionsAround hdata hf hne hdecode rfl rfl⟩

/-- A document whose payload text stands between blanks, behind a character of two units. -/
def wideBlanks : Text :=
  "<p>😀</p><script TYPE='application/c2pa-manifest' >\u2003QUI=\u00A0\n</script>".toList

theorem hashRegions_isolates_wideBlanks : ∃ padded data f payload,
    withPlaceholder wideBlanks [1] = .ok padded ∧ Charset.Codec.utf16.encode padded = .ok data ∧
      Isolates .utf16 padded data
        [⟨0, 106, .included⟩, ⟨106, 8, .excluded⟩, ⟨114, 22, .included⟩] f payload := by
  have hregions : hashRegions (.codec .utf16) wideBlanks [1] =
      .ok [⟨0, 106, .included⟩, ⟨106, 8, .excluded⟩, ⟨114, 22, .included⟩] :=
    eq_ok_of_toOption (by decide +kernel)
  exact hashRegions_isolates hregions

end Inline

end PageManifest
