import PageManifest.Proofs.InPlace
import PageManifest.Proofs.LateFailure
import PageManifest.Proofs.Reporting
import PageManifest.Proofs.Spans
import PageManifest.Proofs.UpToDate

/-! # Operations on documents that fail unreported

Each operation of a backend opens a document and goes on with its text.  What is done
with the text fails for a reason that is not reported where a reference has a number in it
that is too long or leads to a path with a NUL, where something is to be written and the
encoding codes no texts or the name of the temporary file holds a NUL, and where a payload
text is measured to end behind its document.
-/

namespace PageManifest

open Markup Run

variable {m m' : Machine} {path base target : Path} {content payload : Bytes} {t : Text}
  {charset : Charset} {k : Charset.Codec} {failure : Failure}

/-! ## Codings -/

namespace Charset

/-- A text that was decoded is the empty one, or one of a coding. -/
theorem empty_or_isCoding_of_decode (h : charset.decode content = .ok t) :
    (t = [] ∧ ¬ charset.IsCoding) ∨ charset.IsCoding := by
  have hempty : ∀ {fault : Fault}, (if content.isEmpty then .ok [] else .error fault) =
      (.ok t : Except Fault Text) → t = [] := by
    intro fault hdecode
    split at hdecode
    · exact (Except.ok.inj hdecode).symm
    · cases hdecode
  cases charset with
  | codec k => exact .inr (isCoding_codec k)
  | supplied coding => exact .inr (isCoding_supplied coding)
  | transform label => exact .inl ⟨hempty h, by simp [IsCoding]⟩
  | unknown label => exact .inl ⟨hempty h, by simp [IsCoding]⟩
  | withNul => cases h

theorem isCoding_of_decode (h : charset.decode content = .ok t) (hne : t ≠ []) :
    charset.IsCoding :=
  (empty_or_isCoding_of_decode h).resolve_left fun hempty => hne hempty.1

/-- What codes no texts refuses all of them alike. -/
theorem exists_fault_of_not_isCoding (h : ¬ charset.IsCoding) :
    ∃ fault, (∀ t, charset.encode t = .error fault) ∧ (Failure.charset fault).Unreported := by
  cases charset with
  | codec k => exact absurd (isCoding_codec k) h
  | supplied coding => exact absurd (isCoding_supplied coding) h
  | transform label => exact ⟨_, fun _ => rfl, rfl⟩
  | unknown label => exact ⟨_, fun _ => rfl, rfl⟩
  | withNul => exact ⟨_, fun _ => rfl, rfl⟩

/-- A text that a coding refuses is reported. -/
theorem IsCoding.not_unreported {fault : Fault} (h : charset.IsCoding)
    (hfault : charset.encode t = .error fault) : ¬ (Failure.charset fault).Unreported := by
  intro hunreported
  have hrefused : Refuses Failure.Unreported ((charset.encode t).mapError .charset) := by
    rw [hfault]
    exact ⟨.charset fault, rfl, hunreported⟩
  exact unreported_encode_iff.mp hrefused h

theorem exists_encode_of_byteOffset {position : Nat} {fault : Fault}
    (h : charset.byteOffset t position = .error fault) : ∃ s, charset.encode s = .error fault := by
  refine ⟨t.upTo position, ?_⟩
  rw [byteOffset] at h
  cases hencode : charset.encode (t.upTo position) with
  | error fault' =>
      rw [hencode] at h
      cases h
      rfl
  | ok bytes =>
      rw [hencode] at h
      cases h

end Charset

/-- A span is not marked for a text that is not encoded. -/
theorem Marker.exists_encode_of_ofSpan {kind : MarkerKind} {start stop : Nat}
    {fault : Charset.Fault} (h : ofSpan kind charset t start stop = .error fault) :
    ∃ s, charset.encode s = .error fault := by
  unfold ofSpan at h
  split at h
  · rename_i hoffset
    cases h
    exact Charset.exists_encode_of_byteOffset hoffset
  · split at h
    · rename_i hoffset
      cases h
      exact Charset.exists_encode_of_byteOffset hoffset
    · cases h

/-! ## Inline manifests -/

namespace InlineScan

/-- A document is refused for its payload text, or for a text that is not encoded. -/
theorem cases_of_ofText (h : ofText charset t = .error failure) :
    (∃ fault, failure = .malformedPayload fault) ∨
      ∃ fault s, failure = .charset fault ∧ charset.encode s = .error fault := by
  have hhead : ofHead charset t = .error failure →
      ∃ fault s, failure = .charset fault ∧ charset.encode s = .error fault := by
    intro herror
    unfold ofHead at herror
    split at herror
    · cases herror
    · split at herror
      · rename_i fault hoffset
        obtain ⟨s, hencode⟩ := Charset.exists_encode_of_byteOffset hoffset
        exact ⟨fault, s, (Except.error.inj herror).symm, hencode⟩
      · cases herror
  unfold ofText at h
  split at h
  · exact .inr (hhead h)
  · dsimp only at h
    split at h
    · exact .inr (hhead h)
    · split at h
      · rename_i fault _
        exact .inl ⟨fault, (Except.error.inj h).symm⟩
      · split at h
        · rename_i fault hmarker
          obtain ⟨s, hencode⟩ := Marker.exists_encode_of_ofSpan hmarker
          exact .inr ⟨fault, s, (Except.error.inj h).symm, hencode⟩
        · cases h

theorem ofText_nil (charset : Charset) : ofText charset [] = .ok .nothing :=
  rfl

theorem not_unreported_ofText (h : charset.IsCoding) (t : Text) :
    ¬ Refuses Failure.Unreported (ofText charset t) := by
  rintro ⟨failure, hscan, hfailure⟩
  obtain ⟨fault, rfl⟩ | ⟨fault, s, rfl, hencode⟩ := cases_of_ofText hscan
  · cases hfailure
  · exact h.not_unreported hencode hfailure

theorem not_unreported_readPayload (h : charset.decode content = .ok t) :
    ¬ Refuses Failure.Unreported (readPayload charset t) := by
  have hscan : ¬ Refuses Failure.Unreported (ofText charset t) := by
    rcases Charset.empty_or_isCoding_of_decode h with ⟨rfl, -⟩ | hcoding
    · simp [ofText_nil]
    · exact not_unreported_ofText hcoding t
  unfold readPayload
  split
  · rename_i failure hfailure
    rw [hfailure] at hscan
    simpa using hscan
  · simp
  · simp [Failure.Unreported, Failure.category, Command.Status.ofCategory?]

end InlineScan

namespace Inline

variable {placeholder : Bytes}

theorem not_unreported_withPlaceholder (hph : placeholder ≠ []) (t : Text) :
    ¬ Refuses Failure.Unreported (withPlaceholder t placeholder) := by
  have hscan := InlineScan.not_unreported_ofText (Charset.isCoding_codec .utf8) t
  rw [withPlaceholder, if_neg (by simpa using hph), hasPayload]
  cases hread : InlineScan.ofText (.codec .utf8) t with
  | error failure =>
      rw [hread] at hscan
      simpa [Except.map] using hscan
  | ok scan => simp [Except.map]

/-- Without a coding the stand-in cannot even be measured. -/
theorem unreported_ofText_embed (h : ¬ charset.IsCoding) (hph : placeholder ≠ []) :
    Refuses Failure.Unreported (InlineScan.ofText charset (embed [] placeholder)) := by
  obtain ⟨fault, hfault, hunreported⟩ := Charset.exists_fault_of_not_isCoding h
  have hscan := ofText_embed (k := .utf8) (t := []) (fun _ _ => rfl) (by decide +kernel) hph
  obtain ⟨f, hf, hne, hdecode⟩ := InlineScan.exists_of_ofText hscan
  refine ⟨.charset fault, ?_, hunreported⟩
  have hspan : ∀ start stop : Nat,
      Marker.ofSpan .inlineTag charset (embed [] placeholder) start stop = .error fault := by
    intro start stop
    rw [Marker.ofSpan, Charset.byteOffset, hfault]
    rfl
  unfold InlineScan.ofText
  simp only [hf, List.isEmpty_iff, hne, if_false, hdecode, hspan]

theorem unreported_hashRegions_iff (h : charset.decode content = .ok t) (hph : placeholder ≠ []) :
    Refuses Failure.Unreported (hashRegions charset t placeholder) ↔ ¬ charset.IsCoding := by
  rcases Charset.empty_or_isCoding_of_decode h with ⟨rfl, hcoding⟩ | hcoding
  · have hpadded := withPlaceholder_of_vacant (t := [])
      (Element.vacant_of_none rfl) hph
    obtain ⟨failure, hscan, hfailure⟩ := unreported_ofText_embed hcoding hph
    refine iff_of_true ⟨failure, ?_, hfailure⟩ hcoding
    rw [hashRegions, hpadded]
    simp only [hscan]
  · refine iff_of_false ?_ (not_not_intro hcoding)
    have hpadding := not_unreported_withPlaceholder hph t
    rw [hashRegions]
    cases hpadded : withPlaceholder t placeholder with
    | error failure =>
        rw [hpadded] at hpadding
        simpa using hpadding
    | ok padded =>
        have hscan := InlineScan.not_unreported_ofText hcoding padded
        dsimp only
        split
        · rename_i failure hfailure
          rw [hfailure] at hscan
          simpa using hscan
        · split
          · rename_i fault hencode
            simpa using hcoding.not_unreported hencode
          · simp
        · simp [Failure.Unreported, Failure.category, Command.Status.ofCategory?]

/--
The payload text of a measured document ends behind the last octet of the document, so that
one of the regions around it lies outside.
-/
def Overruns (charset : Charset) (t : Text) (placeholder : Bytes) : Prop :=
  ∃ padded payload marker data, withPlaceholder t placeholder = .ok padded ∧
    InlineScan.ofText charset padded = .ok (.manifest payload marker) ∧
      charset.encode padded = .ok data ∧ data.length < marker.stop

end Inline

namespace Region

/-- Of the regions around a range of octets, one lies outside if the range ends outside. -/
theorem exists_outside_regionsAround_iff {data : Bytes} {start stop : Nat} (h : start ≤ stop) :
    (∃ r ∈ ofKind .included (Inline.regionsAround start stop data.length), Outside data r) ↔
      data.length < stop := by
  have hincluded : ofKind .included (Inline.regionsAround start stop data.length) =
      [⟨0, start, .included⟩, ⟨stop, (data.length - stop : Nat), .included⟩] := rfl
  simp only [hincluded, List.mem_cons, List.not_mem_nil, or_false, exists_eq_or_imp,
    exists_eq_left, Outside, Region.stop]
  omega

theorem unreported_digestIncluded_iff [Platform] {name : String} {sum : Bytes → Bytes}
    (h : Digest.method? name = some (.fixed sum)) (data : Bytes) (regions : List Region) :
    Refuses Failure.Unreported ((digestIncluded data regions name).mapError .region) ↔
      ∃ r ∈ ofKind .included regions, Outside data r := by
  have hunreported : ∀ fault : Fault, (Failure.region fault).Unreported := by
    intro fault
    cases fault <;> rfl
  rw [← exists_error_iff, Refuses.mapError_iff, digestIncluded_of_method? h]
  simp only [Refuses, hunreported, and_true]
  cases includedOctets data regions with
  | error fault => exact iff_of_true ⟨fault, rfl⟩ ⟨fault, rfl⟩
  | ok octets =>
      constructor
      · rintro ⟨fault, hfault⟩
        cases hfault
      · rintro ⟨fault, hfault⟩
        cases hfault

end Region

/-! ## References -/

namespace Sidecar

/--
The reference of a document can be marked, and has a number in it that has too many digits to
be read.
-/
def HasLongNumber (charset : Charset) (t : Text) : Prop :=
  ∃ tag href marker fault, ReferenceScan.usable? t = some (tag, href) ∧
    Marker.ofSpan .linkTag charset t (tag.before.length + href.lead.length)
      (tag.before.length + href.lead.length + href.value.length) = .ok marker ∧
    Markup.unescape (Text.trim href.value) = .error fault

theorem not_hasLongNumber_nil (charset : Charset) : ¬ HasLongNumber charset [] := by
  rintro ⟨tag, href, marker, fault, husable, -⟩
  have hnone : ReferenceScan.usable? [] = none := by decide +kernel
  rw [hnone] at husable
  cases husable

theorem locate_nil (charset : Charset) (base : Path) :
    locate charset [] base = .error .noReference := by
  have hnone : ReferenceScan.usable? [] = none := by decide +kernel
  rw [locate, ReferenceScan.ofText, hnone]

/-- Of all that can be wrong with a reference, only a long number is not reported. -/
theorem unreported_locate_iff (h : charset.decode content = .ok t) :
    Refuses Failure.Unreported (locate charset t base) ↔ HasLongNumber charset t := by
  rcases Charset.empty_or_isCoding_of_decode h with ⟨rfl, -⟩ | hcoding
  · rw [locate_nil]
    refine iff_of_false ?_ (not_hasLongNumber_nil charset)
    simp [Failure.Unreported, Failure.category, Command.Status.ofCategory?]
  · unfold HasLongNumber locate ReferenceScan.ofText
    rcases ReferenceScan.usable? t with _ | ⟨tag, href⟩
    · simp [Failure.Unreported, Failure.category, Command.Status.ofCategory?]
    · simp only [Option.some.injEq, Prod.mk.injEq]
      cases hspan : Marker.ofSpan .linkTag charset t (tag.before.length + href.lead.length)
          (tag.before.length + href.lead.length + href.value.length) with
      | error fault =>
          obtain ⟨s, hencode⟩ := Marker.exists_encode_of_ofSpan hspan
          refine iff_of_false (by simpa using hcoding.not_unreported hencode) ?_
          rintro ⟨tag', href', marker, fault', ⟨rfl, rfl⟩, hmarker, -⟩
          rw [hspan] at hmarker
          cases hmarker
      | ok marker =>
          cases hvalue : Markup.unescape (Text.trim href.value) with
          | error fault =>
              refine iff_of_true ⟨_, rfl, rfl⟩ ?_
              exact ⟨tag, href, marker, fault, ⟨rfl, rfl⟩, hspan, hvalue⟩
          | ok value =>
              refine iff_of_false ?_ ?_
              · simp only [resolve]
                split <;> simp [Failure.Unreported, Failure.category, Command.Status.ofCategory?]
              · rintro ⟨tag', href', marker', fault, ⟨rfl, rfl⟩, -, hfault⟩
                rw [hvalue] at hfault
                cases hfault

theorem failsFor_located_iff (h : charset.decode content = .ok t) :
    FailsFor Failure.Unreported (located charset t base : Run (StateM Machine) (Option Path)) m ↔
      HasLongNumber charset t := by
  have hlocate : Refuses Failure.Unreported (locate charset t base) ↔ HasLongNumber charset t :=
    unreported_locate_iff h
  change Refuses _ (on (located charset t base) m).1 ↔ _
  rw [← hlocate, located, on_bind_of_ok (on_noteAll _ m)]
  cases locate charset t base with
  | ok path => simp [on_pure]
  | error failure =>
      by_cases hmissing : failure.category = .manifestMissing
      · simp [hmissing, on_pure, Failure.Unreported, Command.Status.ofCategory?]
      · simp only [hmissing, if_false]
        exact (FailsFor.throw_iff failure).trans (Refuses.error_iff failure).symm

theorem hasNul_of_companion (h : companion path = .ok target) (hpath : path.hasNul = false) :
    target.hasNul = false := by
  rw [← Path.parent_child_name (parts_ne_nil_of_companion h), Path.hasNul_child,
    Bool.or_eq_false_iff, List.contains_eq_mem, decide_eq_false_iff_not] at hpath
  rw [eq_child_of_companion h, Path.hasNul_child, hpath.1, Bool.false_or, String.toList_ofList,
    List.contains_eq_mem, decide_eq_false_iff_not, suffixed, List.mem_append, not_or]
  exact ⟨hpath.2, by decide⟩

theorem failsFor_opened_iff :
    FailsFor Failure.Unreported (Backend.opened path) m ↔ path.hasNul = true := by
  change Refuses _ (on (Backend.opened path) m).1 ↔ _
  rw [Backend.opened, on_bind, on_tryCatch, on_read]
  cases path.hasNul with
  | true => exact iff_of_true ⟨_, rfl, unreported_nulInPath⟩ rfl
  | false =>
      refine iff_of_false ?_ (by simp)
      rintro ⟨failure, hfailure, hunreported⟩
      cases hread : m.store.readFile m.here path with
      | error cause =>
          rw [hread] at hfailure
          cases hfailure
          cases hunreported
      | ok content =>
          rw [hread] at hfailure
          cases content with
          | nil =>
              cases hfailure
              cases hunreported
          | cons octet content => cases hfailure

/-- The reference of a document leads to a path with a NUL in it. -/
def LeadsToNul (charset : Charset) (t : Text) (base : Path) : Prop :=
  ∃ target, locate charset t base = .ok target ∧ target.hasNul = true

theorem failsFor_read_iff (h : charset.decode content = .ok t) :
    FailsFor Failure.Unreported (read charset t base : Run (StateM Machine) Bytes) m ↔
      HasLongNumber charset t ∨ LeadsToNul charset t base := by
  have hfollowed : ∀ m, FailsFor Failure.Unreported
      (Files.value (locate charset t base) >>= Backend.opened) m ↔
        HasLongNumber charset t ∨ LeadsToNul charset t base := by
    intro m
    rw [failsFor_value_bind_iff, unreported_locate_iff h]
    simp only [failsFor_opened_iff]
    rfl
  change FailsFor _ (Files.noteAll _ >>= fun _ =>
    Files.value (locate charset t base) >>= Backend.opened) m ↔ _
  rw [failsFor_noteAll_bind_iff, hfollowed]

/-- What is measured of the companion file that was found. -/
def measured (path : Path) : Run (StateM Machine) (List Region) := do
  match ← Files.size? path with
  | some size => pure [⟨0, size, .excluded⟩]
  | none => throw (.companionMissing path)

theorem not_failsFor_measured (path : Path) : ¬ FailsFor Failure.Unreported (measured path) m := by
  unfold measured
  rw [FailsFor.bind_iff_left]
  · exact not_failsFor_size?
  · intro found m'
    split
    · simp
    · rw [FailsFor.throw_iff]
      exact fun h => by cases h

theorem failsFor_hashRegions_iff (h : charset.decode content = .ok t) :
    FailsFor Failure.Unreported
        (hashRegions charset t base : Run (StateM Machine) (List Region)) m ↔
      HasLongNumber charset t := by
  have hfollowed : ∀ m, FailsFor Failure.Unreported
      (Files.value (locate charset t base) >>= measured) m ↔ HasLongNumber charset t := by
    intro m
    rw [failsFor_value_bind_iff, unreported_locate_iff h]
    simp only [not_failsFor_measured, and_false, exists_false, or_false]
  change FailsFor _ (Files.noteAll _ >>= fun _ =>
    Files.value (locate charset t base) >>= measured) m ↔ _
  rw [failsFor_noteAll_bind_iff, hfollowed]

end Sidecar

/-! ## Steps of operations -/

namespace Backend

variable {b : Backend} {α : Type}

theorem quiet_measured (path : Path) : Quiet (Sidecar.measured path) := by
  refine .bind (.bind (.status? path) fun _ => ?_) fun found => ?_
  · split <;> exact .pure _
  · split
    · exact .pure _
    · exact .throw _

theorem quiet_opened (target : Path) : Quiet (opened target) := by
  have hopened : ∀ m, on (opened target) m = ((on (opened target) m).1, m) := by
    intro m
    rw [opened, on_bind, on_tryCatch, on_read]
    cases target.hasNul with
    | true => rfl
    | false =>
      cases hread : m.store.readFile m.here target with
      | error cause => rfl
      | ok content => cases content <;> rfl
  refine .of_unchanged (fun m => congrArg Prod.snd (hopened m)) fun m m' hstore hhere => ?_
  rw [opened, on_bind, on_bind, on_tryCatch, on_tryCatch, on_read, on_read, hstore, hhere]
  cases target.hasNul with
  | true => rfl
  | false =>
      cases m.store.readFile m.here target with
      | error cause => rfl
      | ok content => cases content <;> rfl

theorem not_failsFor_differing (htarget : target.hasNul = false) :
    ¬ FailsFor Failure.Unreported (differing target payload) m := by
  rw [differing, FailsFor.bind_iff_left]
  · exact not_failsFor_isFile
  · intro present m'
    cases present with
    | false => simp
    | true =>
        change ¬ FailsFor _ (unlike target payload) m'
        rw [unlike, FailsFor.bind_iff_left fun _ _ h => (FailsFor.pure_iff _).mp h,
          PageManifest.failsFor_read_iff, htarget]
        simp

theorem exists_updated (hcompanion : Sidecar.companion path = .ok target) (t : Text)
    (payload : Bytes) : ∃ after, updated b.strategy t path payload = .ok after := by
  cases b.strategy with
  | inline => exact ⟨_, rfl⟩
  | sidecar => exact ⟨_, congrArg (Except.map _) hcompanion⟩

/-- The name of the first temporary file that is tried for a document has a NUL in it. -/
def NulInTemporary (b : Backend) (m : Machine) (path : Path) : Prop :=
  ∃ first ∈ (m.temporaries b.config.tempPrefix path).head?, first.hasNul = true

theorem nulInTemporary_iff_of_left {s : Store} (left : m.Left m' s) :
    b.NulInTemporary m' path ↔ b.NulInTemporary m path := by
  rw [NulInTemporary, NulInTemporary, Machine.temporaries, Machine.temporaries, left.here,
    left.fresh]

theorem failsFor_writeCompanion_iff {tempPrefix : String}
    (hcompanion : Sidecar.companion path = .ok target) (hpath : path.hasNul = false) :
    FailsFor Failure.Unreported (Sidecar.writeCompanion tempPrefix path payload) m ↔
      ∃ first ∈ (m.temporaries tempPrefix path).head?, first.hasNul = true := by
  have htarget := Sidecar.hasNul_of_companion hcompanion hpath
  change FailsFor _ (Files.value _ >>= fun target => Files.replace tempPrefix target payload >>=
    fun size => _ >>= _) m ↔ _
  rw [failsFor_value_bind_iff, hcompanion]
  simp only [Refuses.ok_iff, Except.ok.injEq, exists_eq_left', false_or]
  rw [FailsFor.bind_iff_left, failsFor_replace_iff htarget,
    ← temporaries_of_companion hcompanion tempPrefix rfl rfl]
  intro size m'
  rw [failsFor_noteAll_bind_iff]
  simp

/-! ## Opening a document -/

variable [Platform]

/-- A document with octets that cannot be decoded, since the encoding is no text coding. -/
def Undecoded (b : Backend) (m : Machine) (path : Path) : Prop :=
  ¬ b.charset.IsCoding ∧ ∃ content, m.Holds path content ∧ content ≠ []

theorem undecoded_iff_of_holds (h : m.Holds path content) :
    b.Undecoded m path ↔ ¬ b.charset.IsCoding ∧ content ≠ [] := by
  refine and_congr_right fun _ => ⟨?_, fun hne => ⟨content, h, hne⟩⟩
  rintro ⟨content', h', hne⟩
  rwa [h.unique h'] at hne

theorem document_iff_of_holds (h : m.Holds path content) :
    b.Document m path content t ↔ b.charset.decode content = .ok t :=
  ⟨fun hdocument => hdocument.decoded, fun hdecoded => ⟨h.noNul, h.read, hdecoded⟩⟩

/-- A document that cannot be read is reported. -/
theorem not_failsFor_opening {next : Text → Run (StateM Machine) α} (hpath : path.hasNul = false)
    (h : ¬ ∃ content, m.Holds path content) :
    ¬ FailsFor Failure.Unreported (b.opening path next) m := by
  rw [opening, FailsFor.bind_iff_run, PageManifest.failsFor_read_iff, hpath]
  rintro (hnul | ⟨content, hread, -⟩)
  · cases hnul
  · obtain ⟨hnul, hcontent, -⟩ := on_read_eq_ok_iff.mp (on_eq_of_fst hread)
    exact h ⟨content, hnul, hcontent⟩

theorem failsFor_opening_of_holds {next : Text → Run (StateM Machine) α}
    (hnul : b.charset ≠ .withNul) (h : m.Holds path content) :
    FailsFor Failure.Unreported (b.opening path next) m ↔ b.Undecoded m path ∨
      ∃ t, b.Document m path content t ∧ FailsFor Failure.Unreported (next t) m := by
  have hread : (Files.read path : Run (StateM Machine) Bytes).run m = (.ok content, m) :=
    on_read_eq_ok_iff.mpr ⟨h.noNul, h.read, rfl⟩
  rw [opening, FailsFor.bind_iff_of_run hread, Refuses.ok_iff, false_or]
  change (∃ a, Except.ok content = .ok a ∧ FailsFor _ (Files.value _ >>= next) m) ↔ _
  simp only [Except.ok.injEq, exists_eq_left', failsFor_value_bind_iff,
    Charset.unreported_decode_iff hnul, Charset.mapError_eq_ok_iff, undecoded_iff_of_holds h,
    document_iff_of_holds h]

/-- An operation on the text of a document fails over its octets, or over the text. -/
theorem failsFor_opening_iff {next : Text → Run (StateM Machine) α} {Q : Text → Prop}
    (hnul : b.charset ≠ .withNul) (hpath : path.hasNul = false)
    (hnext : ∀ content t, b.Document m path content t →
      (FailsFor Failure.Unreported (next t) m ↔ Q t)) :
    FailsFor Failure.Unreported (b.opening path next) m ↔ b.Undecoded m path ∨
      ∃ content t, b.Document m path content t ∧ Q t := by
  by_cases hheld : ∃ content, m.Holds path content
  · obtain ⟨content, hheld⟩ := hheld
    rw [failsFor_opening_of_holds hnul hheld]
    refine or_congr_right ⟨?_, ?_⟩
    · rintro ⟨t, h, hfails⟩
      exact ⟨content, t, h, (hnext content t h).mp hfails⟩
    · rintro ⟨content', t, h, hfails⟩
      obtain rfl : content' = content := hheld.unique ⟨h.noNul, h.read⟩
      exact ⟨t, h, (hnext _ t h).mpr hfails⟩
  · refine iff_of_false (not_failsFor_opening hpath hheld) ?_
    rintro (⟨-, content, hcontent, -⟩ | ⟨content, t, h, -⟩)
    · exact hheld ⟨content, hcontent⟩
    · exact hheld ⟨content, h.noNul, h.read⟩

/-! ## Operations that look at a document -/

theorem quiet_opening {next : Text → Run (StateM Machine) α} (h : ∀ t, Quiet (next t)) :
    Quiet (b.opening path next) :=
  .bind (.read path) fun _ => .bind (.value _) h

theorem quiet_readAt (b : Backend) (path : Path) :
    Quiet (b.readAt path : Run (StateM Machine) Bytes) := by
  rw [readAt_eq]
  refine quiet_opening fun t => ?_
  unfold extracting
  split
  · exact .value _
  · exact .bind (.noteAll _) fun _ => .bind (.value _) quiet_opened

/-- A document beside its manifest whose reference has a number in it that is too long. -/
def LongReference (b : Backend) (m : Machine) (path : Path) : Prop :=
  ∃ content t, b.Document m path content t ∧ b.strategy = .sidecar ∧
    Sidecar.HasLongNumber b.charset t

/-- A document beside its manifest whose reference leads to a path with a NUL in it. -/
def NulReference (b : Backend) (m : Machine) (path : Path) : Prop :=
  ∃ content t, b.Document m path content t ∧ b.strategy = .sidecar ∧
    Sidecar.LeadsToNul b.charset t path.parent

/-- A document around its manifest that cannot be measured, since the encoding is no text coding. -/
def Unmeasured (b : Backend) (m : Machine) (path : Path) : Prop :=
  ∃ content t, b.Document m path content t ∧ b.strategy = .inline ∧ ¬ b.charset.IsCoding

/-- What telling what a hash covers does with the text of a document. -/
def measuring (b : Backend) (path : Path) (t : Text) : Run (StateM Machine) (List Region) :=
  match b.strategy with
  | .inline => do
      Files.noteAll (Inline.placeholderNotices t b.config.placeholder)
      Files.value (Inline.hashRegions b.charset t b.config.placeholder)
  | .sidecar => Sidecar.hashRegions b.charset t path.parent

theorem hashRegionsAt_eq (b : Backend) (path : Path) :
    b.hashRegionsAt path = b.opening path (b.measuring path) := rfl

theorem quiet_hashRegionsAt (b : Backend) (path : Path) :
    Quiet (b.hashRegionsAt path : Run (StateM Machine) (List Region)) := by
  rw [hashRegionsAt_eq]
  refine quiet_opening fun t => ?_
  unfold measuring
  split
  · exact .bind (.noteAll _) fun _ => .value _
  · exact .bind (.noteAll _) fun _ => .bind (.value _) quiet_measured

section Looking

variable (hnul : b.charset ≠ .withNul) (hpath : path.hasNul = false)

include hnul hpath

theorem failsFor_readAt_iff :
    FailsFor Failure.Unreported (b.readAt path : Run (StateM Machine) Bytes) m ↔
      b.Undecoded m path ∨ b.LongReference m path ∨ b.NulReference m path := by
  unfold LongReference NulReference
  rw [readAt_eq]
  simp only [← exists_or, ← and_or_left]
  refine failsFor_opening_iff hnul hpath fun content t h => ?_
  rw [extracting]
  cases b.strategy with
  | inline =>
      change FailsFor _ (Files.value (InlineScan.readPayload b.charset t)) m ↔ _
      simp [InlineScan.not_unreported_readPayload h.decoded]
  | sidecar =>
      change FailsFor _ (Sidecar.read b.charset t path.parent) m ↔ _
      simp [Sidecar.failsFor_read_iff h.decoded]

theorem failsFor_hashRegionsAt_iff (hph : b.config.placeholder ≠ []) :
    FailsFor Failure.Unreported (b.hashRegionsAt path : Run (StateM Machine) (List Region)) m ↔
      b.Undecoded m path ∨ b.LongReference m path ∨ b.Unmeasured m path := by
  unfold LongReference Unmeasured
  simp only [← exists_or, ← and_or_left]
  rw [hashRegionsAt_eq]
  refine failsFor_opening_iff hnul hpath fun content t h => ?_
  rw [measuring]
  cases b.strategy with
  | inline =>
      change FailsFor _ (Files.noteAll _ >>= fun _ => Files.value _) m ↔ _
      rw [failsFor_noteAll_bind_iff, FailsFor.value_iff,
        Inline.unreported_hashRegions_iff h.decoded hph]
      simp
  | sidecar =>
      change FailsFor _ (Sidecar.hashRegions b.charset t path.parent) m ↔ _
      simp [Sidecar.failsFor_hashRegions_iff h.decoded]

theorem failsFor_hasManifest_iff :
    FailsFor Failure.Unreported (b.hasManifest path : Run (StateM Machine) Bool) m ↔
      b.Undecoded m path ∨ b.LongReference m path := by
  unfold LongReference
  cases hb : b.strategy with
  | inline =>
      rw [hasManifest_inline hb]
      exact failsFor_opening_iff hnul hpath fun content t h => by simp
  | sidecar =>
      rw [hasManifest_sidecar hb]
      refine failsFor_opening_iff hnul hpath fun content t h => ?_
      rw [presence, FailsFor.bind_iff_left, Sidecar.failsFor_located_iff h.decoded]
      · simp
      · intro found m'
        cases found with
        | none => simp
        | some target => exact not_failsFor_isFile

theorem failsFor_wouldChange_iff (hcompanion : Sidecar.companion path = .ok target) :
    FailsFor Failure.Unreported (b.wouldChange path payload : Run (StateM Machine) Bool) m ↔
      b.Undecoded m path := by
  have htarget : target.hasNul = false :=
    Sidecar.hasNul_of_companion hcompanion hpath
  have hcomparing : ∀ t, ¬ FailsFor Failure.Unreported (b.comparing path payload t) m := by
    intro t
    obtain ⟨after, hafter⟩ := exists_updated (b := b) hcompanion t payload
    rw [comparing, FailsFor.bind_iff_of_run (on_update_of_ok hafter m), Refuses.ok_iff, false_or]
    rintro ⟨after', -, h⟩
    revert h
    cases b.strategy with
    | inline => simp
    | sidecar =>
        by_cases hsame : after' = t
        · simp [hsame, hcompanion, failsFor_value_bind_iff, not_failsFor_differing htarget]
        · simp [hsame]
  rw [wouldChange_eq, failsFor_opening_iff (Q := fun _ => False) hnul hpath
    fun content t h => by simp [hcomparing t]]
  simp

end Looking

/-! ## Operations that write -/

/-- Rewriting fails where no text can be encoded, or where the new file cannot be named. -/
theorem failsFor_rewriting_iff {updated : Text} (hpath : path.hasNul = false)
    {next : Nat → Run (StateM Machine) α}
    (hnext : ∀ size m, ¬ FailsFor Failure.Unreported (next size) m) :
    FailsFor Failure.Unreported (b.encoded updated >>= fun octets =>
        Files.replace b.config.tempPrefix path octets >>= next) m ↔
      ¬ b.charset.IsCoding ∨ b.charset.Encodable updated ∧ b.NulInTemporary m path := by
  change FailsFor _ (Files.value ((b.charset.encode updated).mapError .charset) >>= _) m ↔ _
  rw [failsFor_value_bind_iff, Charset.unreported_encode_iff]
  refine or_congr_right ?_
  rw [Charset.Encodable, ← exists_and_right]
  refine exists_congr fun octets => and_congr Charset.mapError_eq_ok_iff ?_
  rw [FailsFor.bind_iff_left hnext, failsFor_replace_iff hpath, NulInTemporary]

theorem failsFor_embedding_iff (hpath : path.hasNul = false) :
    FailsFor Failure.Unreported (b.embedding path payload t) m ↔ ¬ b.charset.IsCoding ∨
      b.charset.Encodable (Inline.embed t payload) ∧ b.NulInTemporary m path := by
  have hrewriting : ∀ m, FailsFor Failure.Unreported (b.encoded (Inline.embed t payload) >>=
      fun octets => Files.replace b.config.tempPrefix path octets >>= fun _ =>
        Files.noteAll [Log.Record.info "provmark.backends.inline" ("inline: embedded " ++
          toString payload.length ++ "-byte manifest in " ++ path.toString)]) m ↔
        ¬ b.charset.IsCoding ∨
          b.charset.Encodable (Inline.embed t payload) ∧ b.NulInTemporary m path :=
    fun m => failsFor_rewriting_iff hpath fun _ _ => by simp
  exact (failsFor_noteAll_bind_iff _ _).trans (hrewriting _)

/-- A manifest element can only be dropped from a text that was decoded. -/
theorem failsFor_thinning_iff (hpath : path.hasNul = false) (h : b.charset.decode content = .ok t)
    (helement : Inline.hasElement t = true) :
    FailsFor Failure.Unreported (b.thinning path t) m ↔
      b.charset.Encodable (Inline.remove t) ∧ b.NulInTemporary m path := by
  have hcoding : b.charset.IsCoding := by
    refine Charset.isCoding_of_decode h ?_
    rintro rfl
    cases helement
  have hthinning : b.thinning path t = b.encoded (Inline.remove t) >>= fun octets =>
      Files.replace b.config.tempPrefix path octets >>= fun _ =>
        Files.noteAll [Log.Record.info "provmark.backends.inline"
          ("inline: removed manifest from " ++ path.toString)] >>= fun _ => pure true := by
    rw [thinning]
    simp only [if_pos (Inline.remove_ne_of_hasElement helement)]
  rw [hthinning, failsFor_rewriting_iff hpath fun _ _ => by
    rw [failsFor_noteAll_bind_iff]
    simp]
  simp [hcoding]

/-- Only inside a document, the removal of a manifest that is there needs a temporary file. -/
theorem failsFor_removeAt_iff (hpresent : (on (b.hasManifest path) m).1 = .ok true) :
    FailsFor Failure.Unreported (b.removeAt path : Run (StateM Machine) Bool) m ↔
      b.strategy = .inline ∧ b.NulInTemporary m path ∧ ∃ content t, b.Document m path content t ∧
        b.charset.Encodable (Inline.remove t) := by
  cases hb : b.strategy with
  | inline =>
      have hopened := hpresent
      rw [hasManifest_inline hb] at hopened
      obtain ⟨content, t, hdocument⟩ := exists_document_of_opening hopened
      rw [hdocument.on_hasManifest_inline hb, Except.ok.injEq] at hpresent
      rw [removeAt_inline hb]
      change Refuses _ (on (b.opening path (b.thinning path)) m).1 ↔ _
      rw [hdocument.on_opening]
      refine (failsFor_thinning_iff hdocument.noNul hdocument.decoded hpresent).trans ?_
      constructor
      · rintro ⟨hencodable, hnul⟩
        exact ⟨rfl, hnul, content, t, hdocument, hencodable⟩
      · rintro ⟨-, hnul, content', t', hdocument', hencodable⟩
        obtain ⟨rfl, rfl⟩ := hdocument.unique hdocument'
        exact ⟨hencodable, hnul⟩
  | sidecar =>
      obtain ⟨place, hleads⟩ := (on_hasManifest_eq_true_iff hb).mp hpresent
      obtain ⟨m', hremove, -⟩ := hleads.on_removeAt hb
      change Refuses _ (on (b.removeAt path) m).1 ↔ _
      rw [hremove]
      simp

/-- What saving beside a document does with its text. -/
def pairing (b : Backend) (path : Path) (payload : Bytes) (t : Text) :
    Run (StateM Machine) Unit := do
  let target ← Sidecar.writeCompanion b.config.tempPrefix path payload
  Files.noteAll (Sidecar.insertNotices t)
  let _ ← b.link path target t (Sidecar.insertReference t target.name.toList)

theorem saveAt_sidecar (hb : b.strategy = .sidecar) (path : Path) (payload : Bytes) :
    b.saveAt path payload = b.opening path (b.pairing path payload) := by
  rw [saveAt, hb]
  simp only [Sidecar.write, opening, bind_assoc]
  rfl

theorem failsFor_link_iff {updated : Text} (hpath : path.hasNul = false) (hother : updated ≠ t) :
    FailsFor Failure.Unreported (b.link path target t updated) m ↔
      ¬ b.charset.IsCoding ∨ b.charset.Encodable updated ∧ b.NulInTemporary m path := by
  rw [link, if_pos hother]
  exact failsFor_rewriting_iff hpath fun _ _ => by simp

/-- A reference is only left alone in a text that was decoded. -/
theorem failsFor_link_insertReference_iff (hpath : path.hasNul = false)
    (h : b.charset.decode content = .ok t) (hnamed : ¬ b.NulInTemporary m path) (name : Text) :
    FailsFor Failure.Unreported (b.link path target t (Sidecar.insertReference t name)) m ↔
      ¬ b.charset.IsCoding := by
  by_cases hsame : Sidecar.insertReference t name = t
  · rw [hsame, link, if_neg (not_not_intro rfl), FailsFor.pure_iff, false_iff, Classical.not_not]
    refine Charset.isCoding_of_decode h ?_
    rintro rfl
    exact Sidecar.insertReference_ne_nil _ _ hsame
  · rw [failsFor_link_iff hpath hsame]
    simp [hnamed]

/-- Behind a companion file only the encoding is left to fail unreported. -/
theorem failsFor_pairing_iff (hcompanion : Sidecar.companion path = .ok target)
    (h : b.Document m path content t) :
    FailsFor Failure.Unreported (b.pairing path payload t) m ↔ b.NulInTemporary m path ∨
      ¬ b.charset.IsCoding ∧ ∃ place, m.Replaceable b.config.tempPrefix target place := by
  have hwriting : Refuses Failure.Unreported (on (Sidecar.writeCompanion b.config.tempPrefix path
      payload) m).1 ↔ b.NulInTemporary m path := failsFor_writeCompanion_iff hcompanion h.noNul
  by_cases hplace : ∃ place, m.Replaceable b.config.tempPrefix target place
  · obtain ⟨place, hreplaceable⟩ := hplace
    obtain ⟨m₁, hwrite, left⟩ := on_writeCompanion_of_replaceable hcompanion hreplaceable payload
    rw [hwrite, Refuses.ok_iff, false_iff] at hwriting
    have hnamed : ∀ records, ¬ b.NulInTemporary (m₁.noting records) path := fun records =>
      mt (nulInTemporary_iff_of_left (left.trans (m₁.left_noting records))).mp hwriting
    rw [pairing, FailsFor.bind_iff_of_run hwrite]
    simp only [Refuses.ok_iff, Except.ok.injEq, exists_eq_left', false_or, hwriting,
      failsFor_noteAll_bind_iff]
    rw [FailsFor.bind_iff_left fun _ _ => by simp,
      failsFor_link_insertReference_iff h.noNul h.decoded (hnamed _)]
    exact ⟨fun h => ⟨h, place, hreplaceable⟩, fun h => h.1⟩
  · have hunplaced : ∀ target' place, Sidecar.companion path = .ok target' →
        ¬ m.Replaceable b.config.tempPrefix target' place := by
      intro target' place htarget hreplaceable
      obtain rfl : target = target' := Except.ok.inj (hcompanion.symm.trans htarget)
      exact hplace ⟨place, hreplaceable⟩
    obtain ⟨failure, hwrite⟩ := on_writeCompanion_of_not_replaceable hunplaced payload
    rw [hwrite] at hwriting
    rw [pairing, FailsFor.bind_iff_of_run hwrite, hwriting]
    simp [hplace]

/--
A save that fails unreported: the temporary file cannot be named once it is needed, or the
encoding is no text coding and all else is done.
-/
def Unsaved (b : Backend) (m : Machine) (path : Path) (payload : Bytes) : Prop :=
  (b.NulInTemporary m path ∧ (b.strategy = .inline → ∃ content t, b.Document m path content t ∧
      b.charset.Encodable (Inline.embed t payload))) ∨
    ¬ b.charset.IsCoding ∧ (b.strategy = .sidecar →
      ∃ target place, Sidecar.companion path = .ok target ∧
        m.Replaceable b.config.tempPrefix target place)

theorem failsFor_saveAt_iff (hnul : b.charset ≠ .withNul) (hpath : path.hasNul = false)
    (hcompanion : Sidecar.companion path = .ok target) :
    FailsFor Failure.Unreported (b.saveAt path payload : Run (StateM Machine) Unit) m ↔
      b.Undecoded m path ∨ ∃ content t, b.Document m path content t ∧ b.Unsaved m path payload := by
  cases hb : b.strategy with
  | inline =>
      rw [saveAt_inline hb]
      refine failsFor_opening_iff hnul hpath fun content t h => ?_
      rw [failsFor_embedding_iff hpath, Unsaved, hb, or_comm]
      refine or_congr ?_ (by simp)
      constructor
      · rintro ⟨hencodable, hnamed⟩
        exact ⟨hnamed, fun _ => ⟨content, t, h, hencodable⟩⟩
      · rintro ⟨hnamed, hencodable⟩
        obtain ⟨content', t', h', hencodable⟩ := hencodable rfl
        obtain ⟨rfl, rfl⟩ := h.unique h'
        exact ⟨hencodable, hnamed⟩
  | sidecar =>
      rw [saveAt_sidecar hb]
      refine failsFor_opening_iff hnul hpath fun content t h => ?_
      rw [failsFor_pairing_iff hcompanion h, Unsaved, hb]
      simp [hcompanion]

end Backend

end PageManifest
