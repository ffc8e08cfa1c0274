import PageManifest.Proofs.Dumping
import PageManifest.Proofs.Escaping
import PageManifest.Proofs.Performing

/-! # Commands that stop without a report

A command passes on what its backend fails for.  It stops without a report where an
operation fails unreported that it gets to: the ones that look at a document always, the
ones that write only if there is something to apply.
-/

namespace PageManifest

open Run

variable {m m' : Machine} {path : Path} {content payload : Bytes} {t : Text}

/-! ## Machines with the same files -/

namespace Machine.Left

variable {b : Backend}

theorem holds_iff (left : m.Left m' m.store) : m'.Holds path content ↔ m.Holds path content := by
  constructor
  · rintro ⟨hnul, hread⟩
    rw [left.store, left.here] at hread
    exact ⟨hnul, hread⟩
  · rintro ⟨hnul, hread⟩
    rw [← left.store, ← left.here] at hread
    exact ⟨hnul, hread⟩

theorem replaceable_iff (left : m.Left m' m.store) {tempPrefix : String} {place : Location} :
    m'.Replaceable tempPrefix path place ↔ m.Replaceable tempPrefix path place :=
  ⟨left.symm.replaceable, left.replaceable⟩

variable [Platform]

theorem document_iff (left : m.Left m' m.store) :
    b.Document m' path content t ↔ b.Document m path content t :=
  ⟨fun h => h.left left.symm, fun h => h.left left⟩

theorem undecoded_iff (left : m.Left m' m.store) :
    b.Undecoded m' path ↔ b.Undecoded m path := by
  simp only [Backend.Undecoded, left.holds_iff]

theorem unsaved_iff (left : m.Left m' m.store) :
    b.Unsaved m' path payload ↔ b.Unsaved m path payload := by
  simp only [Backend.Unsaved, Backend.nulInTemporary_iff_of_left left, left.replaceable_iff,
    left.document_iff]

end Machine.Left

/-! ## What is known of a configuration in effect -/

namespace Config

variable {c : Config} {source start : Option Path} {search : Bool}
  {strategy encoding : Option String}

theorem made_of_laid {table : Option Toml.Entries} (h : on (laid path table) m = (.ok c, m')) :
    Made c := by
  cases table with
  | none =>
      cases h
      exact .standard
  | some entries =>
      obtain ⟨-, m₁, -, hentries⟩ := exists_of_on_bind h
      exact .withEntries .standard (congrArg Prod.fst hentries)

/-- What is loaded is made of the standard configuration, by a table and by single settings. -/
theorem made_of_load
    (h : (on (load source start search strategy encoding) m).1 = .ok c) : Made c := by
  rw [load_eq] at h
  obtain ⟨found, m₁, -, hrest⟩ := exists_of_on_bind (on_eq_of_fst h)
  obtain ⟨c', m₂, hbase, hsettings⟩ := exists_of_on_bind hrest
  refine .withSettings (c := c') ?_ (congrArg Prod.fst hsettings)
  cases found with
  | none =>
      cases hbase
      exact .standard
  | some path =>
      obtain ⟨present, m₃, -, hfile⟩ := exists_of_on_bind hbase
      cases present with
      | false => cases hfile
      | true =>
          obtain ⟨table, m₄, -, htable⟩ := exists_of_on_bind hfile
          exact made_of_laid htable

theorem Readable.charset_ne_withNul [Platform] (h : Readable c) : c.charset ≠ .withNul := by
  obtain ⟨-, -, hname⟩ := readEncoding_eq_ok_iff.mp (h.encoding none)
  obtain ⟨e, he, hcanonical⟩ := Charset.exists_entry_of_canonicalName? hname
  have hnul : '\x00' ∉ c.encoding.toList := by
    intro hmem
    have hplain := (Charset.plain_canonical e he).2
    rw [hcanonical] at hplain
    exact absurd (List.all_eq_true.mp hplain _ hmem) (by decide)
  rw [charset, Charset.ofName, if_neg (by simpa using hnul)]
  split
  · simp
  · split
    · simp
    · split <;> simp

theorem Readable.placeholder_ne_nil (h : Readable c) : c.placeholder ≠ [] := by
  obtain ⟨hne, hbody⟩ := readPlaceholder_eq_ok_iff.mp (h.placeholder none)
  rw [← hbody]
  exact Charset.Codec.body_ne_nil (fun _ _ => rfl) hne

end Config

namespace Command

variable {α β : Type} {c : Config} {document manifest : Path}

/-! ## Stops -/

/-- A stop without an error that commands report. -/
def Stop.Unreported (stop : Stop) : Prop :=
  ∃ failure, stop = .failure failure

theorem unreported_ofFailure_iff (document : Option Path) (failure : Failure) :
    (Stop.ofFailure document failure).Unreported ↔ failure.Unreported := by
  unfold Stop.ofFailure Error.ofFailure? Error.ofCategory? Failure.Unreported Stop.Unreported
  cases Status.ofCategory? failure.category <;> simp

theorem failsFor_reporting_iff {document : Option Path} {operation : Run (StateM Machine) α} :
    FailsFor Stop.Unreported (reporting document operation) m ↔
      FailsFor Failure.Unreported operation m := by
  change Refuses _ ((on operation m).1.mapError _) ↔ Refuses _ (on operation m).1
  rw [Refuses.mapError_iff]
  simp only [unreported_ofFailure_iff]

theorem not_failsFor_say (message : Terminal.Message) :
    ¬ FailsFor Stop.Unreported (say message : Act (StateM Machine) Unit) m := by
  change ¬ Refuses _ (on (say message) m).1
  rw [on_say]
  simp

theorem not_failsFor_tell (message : String) (color : Option Terminal.Color) :
    ¬ FailsFor Stop.Unreported (tell document message color : Act (StateM Machine) Unit) m :=
  not_failsFor_say _

/-- An action that never stops does not stop without a report. -/
theorem StopsFor.not_failsFor {P : Stop → Prop} {x : Act (StateM Machine) α}
    (h : StopsFor (fun _ => False) x) : ¬ FailsFor P x m := by
  rintro ⟨stop, hstop, -⟩
  exact h m stop hstop

/-- A document that is not handled at all is refused with a report. -/
theorem failsFor_backendFor_bind_iff {f : Backend → Act (StateM Machine) α} :
    FailsFor Stop.Unreported (backendFor c document >>= f) m ↔
      Backend.supports (assetType document) = true ∧
        FailsFor Stop.Unreported (f (backendOf c document)) m := by
  rw [FailsFor.bind_iff_of_run (on_backendFor c document m)]
  cases Backend.supports (assetType document) with
  | true => simp
  | false =>
      have hreported : ¬ (Failure.unsupportedAsset (assetType document)).Unreported := by
        simp [Failure.Unreported, Failure.category, Status.ofCategory?]
      simp [unreported_ofFailure_iff, hreported]

/-! ## Last steps -/

/-- The last step does what it is to do only if that is needed, and to be applied. -/
theorem LastStep.failsFor_act_iff (x : LastStep α) (apply needed : Bool) :
    FailsFor Stop.Unreported (x.act apply needed) m ↔
      apply = true ∧ needed = true ∧ FailsFor Failure.Unreported x.change m := by
  cases needed with
  | false =>
      obtain ⟨m', hact, -⟩ := x.on_act_idle apply m
      change Refuses _ (on (x.act apply false) m).1 ↔ _
      simp [hact]
  | true =>
      cases apply with
      | false =>
          obtain ⟨m', hact, -⟩ := x.on_act_dry m
          change Refuses _ (on (x.act false true) m).1 ↔ _
          simp [hact]
      | true =>
          have htold : ∀ (a : α) m, ¬ FailsFor Stop.Unreported
              (tell x.document x.done (some .green) >>= fun _ =>
                (pure .success : Act (StateM Machine) Status)) m := by
            intro a m
            rw [FailsFor.bind_iff_left fun _ _ => by simp]
            exact not_failsFor_tell _ _
          change FailsFor _ (reporting (some x.document) x.change >>= fun _ => _) m ↔ _
          rw [FailsFor.bind_iff_left htold, failsFor_reporting_iff]
          simp

/-! ## Payloads and companions -/

theorem on_payloadFrom_eq_ok_iff : (on (payloadFrom manifest) m).1 = .ok payload ↔
    m.Holds manifest payload ∧ payload ≠ [] := by
  have hread : ∀ content, (on (Files.read manifest) m).1 = .ok content ↔
      m.Holds manifest content := by
    intro content
    constructor
    · intro h
      obtain ⟨hnul, hcontent, -⟩ := on_read_eq_ok_iff.mp (on_eq_of_fst h)
      exact ⟨hnul, hcontent⟩
    · intro h
      exact congrArg Prod.fst (on_read_eq_ok_iff.mpr ⟨h.noNul, h.read, rfl⟩)
  have hfull : ∀ content, (on (unlessEmpty manifest content) m).1 = .ok payload ↔
      content = payload ∧ payload ≠ [] := by
    intro content
    cases content with
    | nil =>
        refine iff_of_false (fun h => by cases h) ?_
        rintro ⟨rfl, hne⟩
        exact hne rfl
    | cons octet content =>
        change Except.ok (octet :: content) = Except.ok payload ↔ _
        rw [Except.ok.injEq]
        refine ⟨?_, fun h => h.1⟩
        rintro rfl
        simp
  rw [payloadFrom, on_bind_careful_eq_ok_iff (.reporting (.read manifest) _)
    (careful_unlessEmpty manifest)]
  simp only [on_reporting_eq_ok_iff, hread, hfull]
  constructor
  · rintro ⟨content, hcontent, rfl, hne⟩
    exact ⟨hcontent, hne⟩
  · rintro ⟨hcontent, hne⟩
    exact ⟨payload, hcontent, rfl, hne⟩

theorem not_failsFor_payloadFrom (hmanifest : manifest.hasNul = false) :
    ¬ FailsFor Stop.Unreported (payloadFrom manifest) m := by
  rw [payloadFrom, FailsFor.bind_iff_left, failsFor_reporting_iff,
    PageManifest.failsFor_read_iff, hmanifest]
  · simp
  · intro content m'
    unfold unlessEmpty
    split
    · rw [FailsFor.throw_iff]
      rintro ⟨failure, h⟩
      cases h
    · simp

theorem exists_companion (h : Backend.supports (assetType document) = true) :
    ∃ target, Sidecar.companion document = .ok target := by
  refine ⟨_, Sidecar.companion_eq_ok_iff.mpr ⟨fun hname => ?_, rfl⟩⟩
  have hsuffix : document.suffix = "" := by
    simp [Path.suffix, hname]
  rw [assetType, if_pos hsuffix, hname] at h
  exact absurd h (by decide +kernel)

/-! ## Steps that only tell or write -/

/-- What reading does with a manifest: it is printed, or written to a file. -/
def delivering (c : Config) (document : Path) (output : Option Path) (payload : Bytes) :
    Act (StateM Machine) Status := do
  match output with
  | none => say (.ofLine (Base64.encode payload))
  | some output => do
      let _ ← reporting (some output) (Files.replace c.tempPrefix output payload)
      tell output ("wrote " ++ toString payload.length ++ " manifest bytes from " ++
        document.toString) none
  pure .success

theorem failsFor_delivering_iff {payload : Bytes} (hnul : ∀ o, output = some o → o.hasNul = false) :
    FailsFor Stop.Unreported (delivering c document output payload) m ↔
      ∃ o, output = some o ∧ (backendOf c document).NulInTemporary m o := by
  cases output with
  | none =>
      rw [delivering, FailsFor.bind_iff_left fun _ _ => by simp]
      simp [not_failsFor_say]
  | some o =>
      have htold : ∀ (size : Nat) m, ¬ FailsFor Stop.Unreported
          (tell o ("wrote " ++ toString payload.length ++ " manifest bytes from " ++
            document.toString) none >>= fun _ =>
              (pure .success : Act (StateM Machine) Status)) m := by
        intro size m
        rw [FailsFor.bind_iff_left fun _ _ => by simp]
        exact not_failsFor_tell _ _
      simp only [delivering]
      rw [FailsFor.bind_iff_left htold, failsFor_reporting_iff, failsFor_replace_iff (hnul o rfl)]
      simp [Backend.NulInTemporary, backendOf]

theorem not_failsFor_showRegions (sum : Option String) :
    ¬ FailsFor Stop.Unreported (showRegions c document json found sum) m := by
  refine StopsFor.not_failsFor ?_
  cases json with
  | true => exact .bind (.lift _) fun _ => .pure _
  | false =>
      exact .bind (.forM fun _ _ => .lift _) fun _ =>
        .bind (.forM fun _ _ => .lift _) fun _ => .pure _

theorem never_tellVersion (detailed json : Bool) :
    StopsFor (fun _ => False) (tellVersion detailed json : Act (StateM Machine) Status) := by
  unfold tellVersion
  cases json with
  | true => exact .bind (.lift _) fun _ => .pure _
  | false =>
      cases detailed with
      | true => exact .bind (.lift _) fun _ => .bind (.lift _) fun _ => .pure _
      | false => exact .bind (.lift _) fun _ => .pure _

section Requests

variable [Platform]

/-! ## Embedding -/

section Embedding

variable {diff : Bool} {payload : Bytes}

/-- What embedding finds out about a payload, given the text of the document. -/
def forecastFrom (document : Path) (diff : Bool) (b : Backend) (payload : Bytes)
    (before : Text) : Act (StateM Machine) (Bytes × Bool) := do
  let after ← reporting (some document) (b.update before document payload)
  let changed ← reporting (some document) (b.wouldChange document payload)
  preview document diff before after
  pure (payload, changed)

/-- What embedding finds out about a payload. -/
def forecasting (c : Config) (document : Path) (diff : Bool) (b : Backend) (payload : Bytes) :
    Act (StateM Machine) (Bytes × Bool) :=
  documentText c document >>= forecastFrom document diff b payload

theorem careful_forecastFrom (document : Path) (diff : Bool) (b : Backend) (payload : Bytes)
    (before : Text) : Careful (forecastFrom document diff b payload before) :=
  .bind (.reporting (b.quiet_update before document payload) _) fun after =>
    .bind (.reporting (b.quiet_wouldChange document payload) _) fun _ =>
      .bind (careful_preview document diff before after) fun _ => .pure _

theorem careful_forecasting (c : Config) (document : Path) (diff : Bool) (b : Backend)
    (payload : Bytes) : Careful (forecasting c document diff b payload) :=
  .bind (careful_documentText c document) (careful_forecastFrom document diff b payload)

/-- Where the update is known, all that is found out is whether it makes a change. -/
theorem on_forecastFrom {b : Backend} {before after : Text}
    (hupdated : Backend.updated b.strategy before document payload = .ok after) (m : Machine) :
    (on (forecastFrom document diff b payload before) m).1 =
      Prod.mk payload <$>
        (on (reporting (some document) (b.wouldChange document payload)) m).1 := by
  have hupdate := on_reporting_of_ok (Backend.on_update_of_ok hupdated m) (some document)
  have hsame : (on (reporting (some document) (b.wouldChange document payload))
        (m.noting (Backend.updateNotices b.strategy before))).1 =
      (on (reporting (some document) (b.wouldChange document payload)) m).1 :=
    (quiet_reporting (b.quiet_wouldChange document payload) _).same m _ (m.left_noting _)
  rw [forecastFrom, on_bind_of_ok hupdate, ← hsame]
  generalize m.noting _ = m₁
  cases hchanged : on (reporting (some document) (b.wouldChange document payload)) m₁ with
  | mk r m₂ =>
      cases r with
      | error stop =>
          rw [on_bind_of_error hchanged]
          rfl
      | ok changed =>
          rw [on_bind_of_ok hchanged]
          cases diff <;> rfl

theorem surveyEmbed_eq (c : Config) (document manifest : Path) (diff : Bool) :
    surveyEmbed c document manifest diff = backendFor c document >>= fun b =>
      payloadFrom manifest >>= forecasting c document diff b := rfl

end Embedding

/-! ## The text of a document -/

section Documents

variable (hnul : c.charset ≠ .withNul) (hpath : document.hasNul = false)

include hnul hpath

theorem failsFor_documentText_iff :
    FailsFor Stop.Unreported (documentText c document : Act (StateM Machine) Text) m ↔
      (backendOf c document).Undecoded m document := by
  rw [documentText_eq, failsFor_reporting_iff]
  have hopening := Backend.failsFor_opening_iff (b := backendOf c document) (m := m)
    (Q := fun _ => False) hnul hpath fun content t _ => FailsFor.pure_iff t
  simpa using hopening

theorem failsFor_forecasting_iff {target : Path} {diff : Bool} {payload : Bytes}
    (hcompanion : Sidecar.companion document = .ok target) :
    FailsFor Stop.Unreported
        (forecasting c document diff (backendOf c document) payload) m ↔
      (backendOf c document).Undecoded m document := by
  rw [forecasting, FailsFor.bind_iff (careful_documentText c document).quiet fun before =>
    (careful_forecastFrom document diff _ payload before).quiet,
    failsFor_documentText_iff hnul hpath]
  refine or_iff_left_of_imp ?_
  rintro ⟨before, -, h⟩
  obtain ⟨after, hafter⟩ :=
    Backend.exists_updated (b := backendOf c document) hcompanion before payload
  change Refuses _ (on _ m).1 at h
  rw [on_forecastFrom hafter, Refuses.map_iff] at h
  exact (Backend.failsFor_wouldChange_iff (b := backendOf c document) hnul hpath hcompanion).mp
    (failsFor_reporting_iff.mp h)

theorem failsFor_surveyEmbed_iff {target : Path} {diff : Bool}
    (hmanifest : manifest.hasNul = false) (hcompanion : Sidecar.companion document = .ok target) :
    FailsFor Stop.Unreported (surveyEmbed c document manifest diff) m ↔
      Backend.supports (assetType document) = true ∧ ∃ payload, m.Holds manifest payload ∧
        payload ≠ [] ∧ (backendOf c document).Undecoded m document := by
  have hquiet : ∀ payload, Quiet (forecasting c document diff (backendOf c document) payload) :=
    fun payload => (careful_forecasting c document diff _ payload).quiet
  rw [surveyEmbed_eq, failsFor_backendFor_bind_iff,
    FailsFor.bind_iff (careful_payloadFrom manifest).quiet hquiet]
  simp only [not_failsFor_payloadFrom hmanifest, false_or,
    failsFor_forecasting_iff hnul hpath hcompanion]
  refine and_congr_right fun _ => exists_congr fun payload => ?_
  rw [← and_assoc]
  exact and_congr_left fun _ => on_payloadFrom_eq_ok_iff

end Documents

section Embedding

variable {diff apply changed : Bool} {payload : Bytes}

theorem on_surveyEmbed_eq_ok_iff :
    (on (surveyEmbed c document manifest diff) m).1 = .ok (payload, changed) ↔
      Backend.supports (assetType document) = true ∧ m.Holds manifest payload ∧ payload ≠ [] ∧
        (on ((backendOf c document).wouldChange document payload) m).1 = .ok changed := by
  constructor
  · intro h
    obtain ⟨hcontent, -, -, -, -, -, hchanged⟩ := exists_of_surveyEmbed h
    rw [surveyEmbed_eq] at h
    obtain ⟨b, m₁, hbackend, left, h⟩ :=
      exists_of_careful_bind (careful_backendFor c document) (.refl m) h
    obtain ⟨found, m₂, hfound, -, -⟩ :=
      exists_of_careful_bind (careful_payloadFrom manifest) left h
    obtain ⟨hheld, hne⟩ := on_payloadFrom_eq_ok_iff.mp hfound
    obtain rfl : found = payload := Except.ok.inj (hheld.read.symm.trans hcontent)
    exact ⟨(on_backendFor_eq_ok_iff.mp hbackend).1, hheld, hne, hchanged⟩
  · rintro ⟨hsupports, hheld, hne, hchanged⟩
    obtain ⟨target, hcompanion⟩ := exists_companion hsupports
    obtain ⟨content, t, hdocument⟩ := Backend.exists_document_of_opening hchanged
    obtain ⟨after, hafter⟩ :=
      Backend.exists_updated (b := backendOf c document) hcompanion t payload
    have hreported : (on (reporting (some document)
        ((backendOf c document).wouldChange document payload)) m).1 = .ok changed :=
      on_reporting_eq_ok_iff.mpr hchanged
    rw [surveyEmbed_eq, on_bind_careful_eq_ok_iff (careful_backendFor c document) fun b =>
      .bind (careful_payloadFrom manifest) (careful_forecasting c document diff b)]
    refine ⟨_, on_backendFor_eq_ok_iff.mpr ⟨hsupports, rfl⟩, ?_⟩
    rw [on_bind_careful_eq_ok_iff (careful_payloadFrom manifest)
      (careful_forecasting c document diff _)]
    refine ⟨payload, on_payloadFrom_eq_ok_iff.mpr ⟨hheld, hne⟩, ?_⟩
    rw [forecasting, on_bind_careful_eq_ok_iff (careful_documentText c document)
      (careful_forecastFrom document diff _ payload)]
    refine ⟨t, on_documentText_eq_ok_iff.mpr ⟨content, hdocument⟩, ?_⟩
    rw [on_forecastFrom hafter, hreported]
    rfl

/-- Embedding trips over the document at once, and over the save once that is due. -/
theorem failsFor_embed_iff (hnul : c.charset ≠ .withNul) (hpath : document.hasNul = false)
    (hmanifest : manifest.hasNul = false) :
    FailsFor Stop.Unreported
        (embed c document manifest apply diff : Act (StateM Machine) Status) m ↔
      Backend.supports (assetType document) = true ∧ ∃ payload, m.Holds manifest payload ∧
        payload ≠ [] ∧ ((backendOf c document).Undecoded m document ∨ apply = true ∧
          (on ((backendOf c document).wouldChange document payload) m).1 = .ok true ∧
            (backendOf c document).Unsaved m document payload) := by
  by_cases hsupports : Backend.supports (assetType document) = true
  · obtain ⟨target, hcompanion⟩ := exists_companion hsupports
    obtain ⟨r, m', hrun, left⟩ := (careful_surveyEmbed c document manifest diff).exists_on m
    have hrefused :
        Refuses Stop.Unreported (on (surveyEmbed c document manifest diff) m).1 ↔ _ :=
      failsFor_surveyEmbed_iff hnul hpath hmanifest hcompanion
    have hfound : ∀ payload changed,
        (on (surveyEmbed c document manifest diff) m).1 = .ok (payload, changed) ↔ _ :=
      fun _ _ => on_surveyEmbed_eq_ok_iff
    rw [hrun] at hrefused hfound
    rw [embed_eq, FailsFor.bind_iff_of_run hrun, hrefused]
    simp only [Prod.exists, hfound, LastStep.failsFor_act_iff, embedding,
      Backend.failsFor_saveAt_iff (b := backendOf c document) hnul hpath hcompanion,
      left.undecoded_iff, left.document_iff, left.unsaved_iff, hsupports, true_and]
    constructor
    · rintro (⟨payload, hheld, hne, h⟩ | ⟨payload, changed, ⟨hheld, hne, hwould⟩, happly, rfl, h⟩)
      · exact ⟨payload, hheld, hne, .inl h⟩
      · refine ⟨payload, hheld, hne, ?_⟩
        rcases h with h | ⟨content, t, -, h⟩
        · exact .inl h
        · exact .inr ⟨happly, hwould, h⟩
    · rintro ⟨payload, hheld, hne, h | ⟨happly, hwould, h⟩⟩
      · exact .inl ⟨payload, hheld, hne, h⟩
      · obtain ⟨content, t, hdocument⟩ := Backend.exists_document_of_opening hwould
        exact .inr ⟨payload, true, ⟨hheld, hne, hwould⟩, happly, rfl,
          .inr ⟨content, t, hdocument, h⟩⟩
  · unfold embed
    rw [failsFor_backendFor_bind_iff]
    simp [hsupports]

end Embedding

/-! ## Stripping -/

section Stripping

variable {diff apply : Bool}

theorem failsFor_surveyStrip_iff :
    FailsFor Stop.Unreported (surveyStrip c document diff) m ↔
      Backend.supports (assetType document) = true ∧ FailsFor Failure.Unreported
        ((backendOf c document).hasManifest document : Run (StateM Machine) Bool) m := by
  rw [surveyStrip, failsFor_backendFor_bind_iff,
    FailsFor.bind_iff (quiet_reporting (Backend.quiet_hasManifest _ document) _) fun _ =>
      .bind (careful_previewStripped c document _).quiet fun _ => .pure _,
    failsFor_reporting_iff]
  refine and_congr_right fun _ => or_iff_left_of_imp ?_
  rintro ⟨present, hpresent, h⟩
  obtain ⟨content, t, hdocument⟩ :=
    Backend.exists_document_of_opening (on_reporting_eq_ok_iff.mp hpresent)
  obtain ⟨m₁, hpreview⟩ := exists_on_previewStripped hdocument (present && diff)
  rw [FailsFor.bind_iff_of_run hpreview] at h
  simp at h

theorem failsFor_strip_iff (hnul : c.charset ≠ .withNul) (hpath : document.hasNul = false) :
    FailsFor Stop.Unreported (strip c document apply diff : Act (StateM Machine) Status) m ↔
      Backend.supports (assetType document) = true ∧
        ((backendOf c document).Undecoded m document ∨
          (backendOf c document).LongReference m document ∨ apply = true ∧
            (on ((backendOf c document).hasManifest document) m).1 = .ok true ∧
              c.strategy = .inline ∧ (backendOf c document).NulInTemporary m document ∧
              ∃ content t, (backendOf c document).Document m document content t ∧
                c.charset.Encodable (Inline.remove t)) := by
  obtain ⟨r, m', hrun, left⟩ := (careful_surveyStrip c document diff).exists_on m
  have hrefused : Refuses Stop.Unreported (on (surveyStrip c document diff) m).1 ↔ _ :=
    failsFor_surveyStrip_iff
  have hfound := @on_surveyStrip_eq_ok_iff m _ c document diff
  rw [hrun] at hrefused hfound
  have hremoved : (on ((backendOf c document).hasManifest document) m).1 = .ok true →
      (FailsFor Failure.Unreported ((backendOf c document).removeAt document) m' ↔
        c.strategy = .inline ∧ (backendOf c document).NulInTemporary m document ∧
          ∃ content t, (backendOf c document).Document m document content t ∧
            c.charset.Encodable (Inline.remove t)) := by
    intro hpresent
    have hpresent' : (on ((backendOf c document).hasManifest document) m').1 = .ok true :=
      ((Backend.quiet_hasManifest _ document).same m m' left).trans hpresent
    rw [Backend.failsFor_removeAt_iff hpresent', Backend.nulInTemporary_iff_of_left left]
    simp only [left.document_iff]
    rfl
  rw [strip_eq, FailsFor.bind_iff_of_run hrun, hrefused]
  simp only [hfound, LastStep.failsFor_act_iff, stripping,
    Backend.failsFor_hasManifest_iff (b := backendOf c document) hnul hpath]
  constructor
  · rintro (⟨hsupports, h⟩ | ⟨present, ⟨hsupports, hpresent⟩, happly, rfl, h⟩)
    · exact ⟨hsupports, h.imp_right .inl⟩
    · exact ⟨hsupports, .inr (.inr ⟨happly, hpresent, (hremoved hpresent).mp h⟩)⟩
  · rintro ⟨hsupports, h | h | ⟨happly, hpresent, h⟩⟩
    · exact .inl ⟨hsupports, .inl h⟩
    · exact .inl ⟨hsupports, .inr h⟩
    · exact .inr ⟨true, ⟨hsupports, hpresent⟩, happly, rfl, (hremoved hpresent).mpr h⟩

end Stripping

/-! ## Reading -/

section Reading

variable {output : Option Path}

theorem failsFor_read_iff (hnul : c.charset ≠ .withNul) (hpath : document.hasNul = false)
    (houtput : ∀ o, output = some o → o.hasNul = false) :
    FailsFor Stop.Unreported (read c document output : Act (StateM Machine) Status) m ↔
      Backend.supports (assetType document) = true ∧
        ((backendOf c document).Undecoded m document ∨
          (backendOf c document).LongReference m document ∨
          (backendOf c document).NulReference m document ∨
          (∃ payload, (on ((backendOf c document).readAt document) m).1 = .ok payload) ∧
            ∃ o, output = some o ∧ (backendOf c document).NulInTemporary m o) := by
  have hread : read c document output = backendFor c document >>= fun b =>
      reporting (some document) (b.readAt document) >>= delivering c document output := rfl
  obtain ⟨r, m', hrun, left⟩ :=
    exists_on_of_quiet (Backend.quiet_readAt (backendOf c document) document) m
  have hreported := on_reporting (some document) ((backendOf c document).readAt document) m
  have hrefused := Backend.failsFor_readAt_iff (b := backendOf c document) (m := m) hnul hpath
  change Refuses _ (on _ m).1 ↔ _ at hrefused
  rw [hrun] at hreported hrefused
  rw [hread, failsFor_backendFor_bind_iff, FailsFor.bind_iff_of_run hreported, hrun,
    Refuses.mapError_iff]
  simp only [unreported_ofFailure_iff, hrefused, failsFor_delivering_iff houtput,
    Backend.nulInTemporary_iff_of_left left, Charset.mapError_eq_ok_iff, exists_and_right, or_assoc]

end Reading

/-! ## Hash regions -/

section Regions

variable {json digest : Bool} {found : List Region}

/-- A document around its manifest whose payload text is measured to end behind its octets. -/
def Overrun (c : Config) (m : Machine) (document : Path) : Prop :=
  ∃ content t, (backendOf c document).Document m document content t ∧ c.strategy = .inline ∧
    Inline.Overruns c.charset t c.placeholder

theorem method?_sha256 : ∃ sum, Digest.method? "sha256" = some (.fixed sum) :=
  ⟨_, rfl⟩

/-- Of a document that was measured, only a payload text that ends behind it is not reported. -/
theorem failsFor_digestOf_iff
    (h : (backendOf c document).Document m document content t)
    (hfound : Inline.hashRegions c.charset t c.placeholder = .ok found) :
    FailsFor Stop.Unreported (digestOf c document found : Act (StateM Machine) String) m ↔
      Inline.Overruns c.charset t c.placeholder := by
  obtain ⟨padded, payload, marker, data, hpadded, hscan, hdata, rfl⟩ :=
    Inline.exists_of_hashRegions hfound
  obtain ⟨sum, hsum⟩ := method?_sha256
  have hstop : marker.offset ≤ marker.stop := Nat.le_add_right ..
  have htext : on (documentText c document) m = (.ok t, m) := by
    rw [documentText_eq]
    exact on_reporting_of_ok (h.on_opening pure) _
  rw [digestOf, FailsFor.bind_iff_of_run htext]
  simp only [Refuses.ok_iff, Except.ok.injEq, exists_eq_left', false_or, failsFor_reporting_iff,
    failsFor_value_bind_iff, failsFor_noteAll_bind_iff, hpadded, FailsFor.value_iff,
    Sidecar.encoded, hdata, Region.unreported_digestIncluded_iff hsum,
    Region.exists_outside_regionsAround_iff hstop, Refuses.mapError_iff,
    Charset.mapError_eq_ok_iff]
  constructor
  · intro hover
    exact ⟨padded, payload, marker, data, hpadded, hscan, hdata, hover⟩
  · rintro ⟨padded', payload', marker', data', hpadded', hscan', hdata', hover⟩
    obtain rfl : padded' = padded := Except.ok.inj (hpadded'.symm.trans hpadded)
    obtain rfl : data' = data := Except.ok.inj (hdata'.symm.trans hdata)
    obtain ⟨-, rfl⟩ := InlineScan.manifest.inj (Except.ok.inj (hscan'.symm.trans hscan))
    exact hover

theorem on_hashRegionsAt_inline (hstrategy : c.strategy = .inline)
    (h : (backendOf c document).Document m document content t) :
    (on ((backendOf c document).hashRegionsAt document) m).1 =
      Inline.hashRegions c.charset t c.placeholder := by
  have hmeasured : (backendOf c document).measuring document t =
      Files.noteAll (Inline.placeholderNotices t c.placeholder) >>= fun _ =>
        Files.value (Inline.hashRegions c.charset t c.placeholder) := by
    unfold Backend.measuring backendOf
    rw [hstrategy]
    rfl
  rw [Backend.hashRegionsAt_eq, h.on_opening, hmeasured, on_bind_of_ok (on_noteAll _ m), on_value]

/-- What a payload text that ends behind its document was measured for are its regions. -/
theorem Overrun.exists_hashRegionsAt (h : Overrun c m document) :
    ∃ found, (on ((backendOf c document).hashRegionsAt document) m).1 = .ok found := by
  obtain ⟨content, t, hdocument, hstrategy, padded, payload, marker, data, hpadded, hscan, hdata,
    -⟩ := h
  rw [on_hashRegionsAt_inline hstrategy hdocument, Inline.hashRegions, hpadded]
  simp only [hscan, hdata]
  exact ⟨_, rfl⟩

theorem failsFor_sumOf_iff (left : m.Left m' m.store)
    (hfound : (on ((backendOf c document).hashRegionsAt document) m).1 = .ok found) :
    FailsFor Stop.Unreported (sumOf c document digest found) m' ↔
      digest = true ∧ Overrun c m document := by
  unfold sumOf
  split
  · rename_i hbeside
    have hsidecar : c.strategy ≠ .inline := by
      simp only [Bool.and_eq_true, decide_eq_true_eq] at hbeside
      exact hbeside.2
    rw [FailsFor.throw_iff]
    refine iff_of_false ?_ ?_
    · rintro ⟨failure, h⟩
      cases h
    · rintro ⟨-, content, t, -, hinline, -⟩
      exact hsidecar hinline
  · rename_i hinline
    cases digest with
    | false => simp
    | true =>
        have hstrategy : c.strategy = .inline := by simpa using hinline
        obtain ⟨content, t, hdocument⟩ := Backend.exists_document_of_opening
          (Backend.hashRegionsAt_eq _ document ▸ hfound)
        rw [on_hashRegionsAt_inline hstrategy hdocument] at hfound
        rw [if_pos rfl, map_eq_pure_bind, FailsFor.bind_iff_left fun _ _ => by simp,
          failsFor_digestOf_iff (hdocument.left left) hfound]
        constructor
        · intro hover
          exact ⟨rfl, content, t, hdocument, hstrategy, hover⟩
        · rintro ⟨-, content', t', hdocument', -, hover⟩
          obtain ⟨rfl, rfl⟩ := hdocument.unique hdocument'
          exact hover

/-- Measuring trips over the document, and a digest over what was measured. -/
theorem failsFor_regions_iff (hnul : c.charset ≠ .withNul) (hpath : document.hasNul = false)
    (hph : c.placeholder ≠ []) :
    FailsFor Stop.Unreported
        (regions c document json digest : Act (StateM Machine) Status) m ↔
      Backend.supports (assetType document) = true ∧
        ((backendOf c document).Undecoded m document ∨
          (backendOf c document).LongReference m document ∨
          (backendOf c document).Unmeasured m document ∨
          digest = true ∧ Overrun c m document) := by
  obtain ⟨r, m', hrun, left⟩ :=
    exists_on_of_quiet (Backend.quiet_hashRegionsAt (backendOf c document) document) m
  have hreported :=
    on_reporting (some document) ((backendOf c document).hashRegionsAt document) m
  have hsummed : ∀ found, r = .ok found →
      (FailsFor Stop.Unreported (sumOf c document digest found) m' ↔
        digest = true ∧ Overrun c m document) := by
    intro found hr
    rw [hr] at hrun
    exact failsFor_sumOf_iff left (congrArg Prod.fst hrun)
  have hrefused :=
    Backend.failsFor_hashRegionsAt_iff (b := backendOf c document) (m := m) hnul hpath hph
  change Refuses _ (on _ m).1 ↔ _ at hrefused
  rw [hrun] at hreported hrefused
  rw [regions_eq, failsFor_backendFor_bind_iff, FailsFor.bind_iff_of_run hreported,
    Refuses.mapError_iff]
  simp only [unreported_ofFailure_iff, hrefused, or_assoc, Charset.mapError_eq_ok_iff]
  refine and_congr_right fun _ => or_congr_right (or_congr_right (or_congr_right ?_))
  simp only [FailsFor.bind_iff_left fun sum m => not_failsFor_showRegions sum]
  constructor
  · rintro ⟨found, hr, h⟩
    exact (hsummed found hr).mp h
  · rintro ⟨hdigest, hover⟩
    obtain ⟨found, hfound⟩ := hover.exists_hashRegionsAt
    rw [hrun] at hfound
    exact ⟨found, hfound, (hsummed found hfound).mpr ⟨hdigest, hover⟩⟩

end Regions

/-! ## Requests -/

/-- The paths that a request names. -/
def Request.paths : Request → List Path
  | .config => []
  | .version _ => []
  | .read document output => document :: output.toList
  | .embed document manifest _ _ => [document, manifest]
  | .strip document _ _ => [document]
  | .regions document _ _ => [document]

/--
A request that trips over something of which nothing is reported.  All of them do over a
document that is to be decoded by what is no text coding, and those that follow a reference
over one with a long number.  Reading also trips over a reference that leads to a NUL, and
measuring over an empty document that is to be encoded, or, for a digest, over a payload
text that ends behind the document.  What is written trips over a temporary file that cannot
be named, or over a text that is to be encoded by what is no text coding.
-/
def Escapes (c : Config) (m : Machine) : Request → Prop
  | .config => False
  | .version _ => False
  | .read document output =>
      Backend.supports (assetType document) = true ∧
        ((backendOf c document).Undecoded m document ∨
          (backendOf c document).LongReference m document ∨
          (backendOf c document).NulReference m document ∨
          (∃ payload, (on ((backendOf c document).readAt document) m).1 = .ok payload) ∧
            ∃ o, output = some o ∧ (backendOf c document).NulInTemporary m o)
  | .embed document manifest apply _ =>
      Backend.supports (assetType document) = true ∧ ∃ payload, m.Holds manifest payload ∧
        payload ≠ [] ∧ ((backendOf c document).Undecoded m document ∨ apply = true ∧
          (on ((backendOf c document).wouldChange document payload) m).1 = .ok true ∧
            (backendOf c document).Unsaved m document payload)
  | .strip document apply _ =>
      Backend.supports (assetType document) = true ∧
        ((backendOf c document).Undecoded m document ∨
          (backendOf c document).LongReference m document ∨ apply = true ∧
            (on ((backendOf c document).hasManifest document) m).1 = .ok true ∧
              c.strategy = .inline ∧ (backendOf c document).NulInTemporary m document ∧
              ∃ content t, (backendOf c document).Document m document content t ∧
                c.charset.Encodable (Inline.remove t))
  | .regions document _ digest =>
      Backend.supports (assetType document) = true ∧
        ((backendOf c document).Undecoded m document ∨
          (backendOf c document).LongReference m document ∨
          (backendOf c document).Unmeasured m document ∨
          digest = true ∧ Overrun c m document)

/-- What requests trip over is all that they stop for without a report. -/
theorem failsFor_perform_iff {request : Request} (hc : c.Readable) (detailed : Bool)
    (hpaths : ∀ path ∈ request.paths, path.hasNul = false) :
    FailsFor Stop.Unreported (perform c detailed request : Act (StateM Machine) Status) m ↔
      Escapes c m request := by
  have hnul := hc.charset_ne_withNul
  cases request with
  | config =>
      exact iff_of_false (StopsFor.not_failsFor (.bind (.lift _) fun _ => .pure _)) id
  | version json => exact iff_of_false (StopsFor.not_failsFor (never_tellVersion detailed json)) id
  | read document output =>
      exact failsFor_read_iff hnul (hpaths _ (by simp [Request.paths])) fun o ho =>
        hpaths o (by simp [Request.paths, ho])
  | embed document manifest apply diff =>
      exact failsFor_embed_iff hnul (hpaths _ (by simp [Request.paths]))
        (hpaths _ (by simp [Request.paths]))
  | strip document apply diff =>
      exact failsFor_strip_iff hnul (hpaths _ (by simp [Request.paths]))
  | regions document json digest =>
      exact failsFor_regions_iff hnul (hpaths _ (by simp [Request.paths])) hc.placeholder_ne_nil

end Requests

end Command

end PageManifest
