import PageManifest.Proofs.Acts

/-! # What commands find out first

A command that changes a document looks at everything it needs before it changes
anything, and only its last step depends on whether it is to apply the change.
-/

namespace PageManifest.Command

open Run

variable {m m' : Machine}

/-! ## Careful actions one after the other -/

theorem on_bind_careful_eq_ok_iff {α β : Type} {x : Act (StateM Machine) α}
    {f : α → Act (StateM Machine) β} {b : β} (hx : Careful x) (hf : ∀ a, Careful (f a)) :
    (on (x >>= f) m).1 = .ok b ↔
      ∃ a, (on x m).1 = .ok a ∧ (on (f a) m).1 = .ok b :=
  hx.quiet.bind_eq_ok_iff fun a => (hf a).quiet

/-- What an action finds does not depend on the careful actions before it. -/
theorem exists_of_careful_bind {α β : Type} {m₀ : Machine} {x : Act (StateM Machine) α}
    {f : α → Act (StateM Machine) β} {b : β} (hx : Careful x) (left : m₀.Left m m₀.store)
    (h : (on (x >>= f) m).1 = .ok b) :
    ∃ a m₁, (on x m₀).1 = .ok a ∧ m₀.Left m₁ m₀.store ∧ (on (f a) m₁).1 = .ok b := by
  have hsame : (on x m).1 = (on x m₀).1 := hx.quiet.same m₀ m left
  obtain ⟨r, m₁, hrun, left'⟩ := hx.exists_on m
  rw [left.store] at left'
  cases r with
  | error stop =>
      rw [on_bind_of_error hrun] at h
      cases h
  | ok a =>
      rw [on_bind_of_ok hrun] at h
      rw [hrun] at hsame
      exact ⟨a, m₁, hsame.symm, left.trans left', h⟩

theorem on_reporting_eq_ok_iff {α : Type} {document : Option Path}
    {operation : Run (StateM Machine) α} {a : α} :
    (on (reporting document operation) m).1 = .ok a ↔ (on operation m).1 = .ok a := by
  rw [on_reporting]
  exact Charset.mapError_eq_ok_iff

theorem careful_backendFor (c : Config) (document : Path) :
    Careful (backendFor c document : Act (StateM Machine) Backend) :=
  .bind (.reporting (.value _) _) fun _ => .pure _

theorem on_backendFor_eq_ok_iff {c : Config} {document : Path} {b : Backend} :
    (on (backendFor c document) m).1 = .ok b ↔
      Backend.supports (assetType document) = true ∧ b = backendOf c document := by
  rw [on_backendFor]
  cases Backend.supports (assetType document) with
  | false => simp
  | true => simp [eq_comm]

/-! ## Payloads and previews -/

/-- Refuses an empty payload. -/
def unlessEmpty (manifest : Path) (payload : Bytes) : Act (StateM Machine) Bytes :=
  if payload.isEmpty then
    throw (.error ⟨.usage, manifest.toString ++ ": manifest store is empty"⟩)
  else pure payload

def payloadFrom (manifest : Path) : Act (StateM Machine) Bytes :=
  reporting (some manifest) (Files.read manifest) >>= unlessEmpty manifest

theorem careful_unlessEmpty (manifest : Path) (payload : Bytes) :
    Careful (unlessEmpty manifest payload) := by
  unfold unlessEmpty
  split
  · exact .throw (by simp [Stop.Serious])
  · exact .pure _

theorem careful_payloadFrom (manifest : Path) : Careful (payloadFrom manifest) :=
  .bind (.reporting (.read manifest) _) (careful_unlessEmpty manifest)

/-- A payload is what a file holds, and not empty. -/
theorem readFile_of_payloadFrom {manifest : Path} {payload : Bytes}
    (h : (on (payloadFrom manifest) m).1 = .ok payload) :
    m.store.readFile m.here manifest = .ok payload ∧ payload ≠ [] := by
  rw [payloadFrom] at h
  obtain ⟨content, hread, hrest⟩ :=
    (on_bind_careful_eq_ok_iff (.reporting (.read manifest) _) (careful_unlessEmpty manifest)).mp h
  obtain ⟨-, hfile, -⟩ :=
    on_read_eq_ok_iff.mp (on_eq_of_fst (on_reporting_eq_ok_iff.mp hread))
  cases content with
  | nil => cases hrest
  | cons b content =>
      cases hrest
      exact ⟨hfile, by simp⟩

/-- Shows the change of a document if it is asked for. -/
def preview (document : Path) (diff : Bool) (before after : Text) : Act (StateM Machine) Unit :=
  if diff then say (.diff (Diff.unified before after document.toString)) else pure ()

theorem careful_preview (document : Path) (diff : Bool) (before after : Text) :
    Careful (preview document diff before after) := by
  cases diff with
  | false => exact .pure _
  | true => exact .say _

theorem updated_of_update {b : Backend} {t after : Text} {document : Path} {payload : Bytes}
    (h : (on (b.update t document payload) m).1 = .ok after) :
    Backend.updated b.strategy t document payload = .ok after := by
  unfold Backend.update at h
  cases hupdated : Backend.updated b.strategy t document payload with
  | error failure =>
      rw [hupdated, on_bind_of_error (on_value (.error failure) m)] at h
      cases h
  | ok t' =>
      rw [hupdated, on_bind_of_ok (on_value (.ok t') m),
        on_bind_of_ok (on_noteAll _ m)] at h
      exact h

/-! ## Last steps -/

/-- The last step of a command on a document: a change, and what is told of it. -/
structure LastStep (α : Type) where
  document : Path
  idle : String
  pending : String
  done : String
  change : Run (StateM Machine) α

/-- What is needed is done if it is to be applied, and else told. -/
def LastStep.act {α : Type} (x : LastStep α) (apply needed : Bool) : Act (StateM Machine) Status :=
  if !needed then do
    tell x.document x.idle none
    pure .success
  else if !apply then do
    tell x.document x.pending none
    pure .wouldChange
  else do
    let _ ← reporting (some x.document) x.change
    tell x.document x.done (some .green)
    pure .success

namespace LastStep

variable {α : Type} (x : LastStep α)

theorem on_act_idle (apply : Bool) (m : Machine) :
    ∃ m', on (x.act apply false) m = (.ok .success, m') ∧ m.Left m' m.store := by
  obtain ⟨m', htell, left⟩ := on_tell x.document x.idle none m
  exact ⟨m', on_bind_of_ok htell, left⟩

theorem on_act_dry (m : Machine) :
    ∃ m', on (x.act false true) m = (.ok .wouldChange, m') ∧ m.Left m' m.store := by
  obtain ⟨m', htell, left⟩ := on_tell x.document x.pending none m
  exact ⟨m', on_bind_of_ok htell, left⟩

theorem on_act_of_ok {a : α} (h : on x.change m = (.ok a, m')) :
    ∃ m'', on (x.act true true) m = (.ok .success, m'') ∧ m'.Left m'' m'.store := by
  obtain ⟨m'', htell, left⟩ := on_tell x.document x.done (some .green) m'
  have hdone := on_reporting_of_ok h (some x.document)
  exact ⟨m'', (on_bind_of_ok hdone).trans (on_bind_of_ok htell), left⟩

theorem on_act_of_error {failure : Failure} (h : on x.change m = (.error failure, m')) :
    on (x.act true true) m = (.error (.ofFailure (some x.document) failure), m') :=
  on_bind_of_error (on_reporting_of_error h _)

/-- What is done to files is done by the change. -/
theorem store_of_act (m : Machine) :
    (on (x.act true true) m).2.store = (on x.change m).2.store := by
  rcases hrun : on x.change m with ⟨failure | a, m'⟩
  · rw [x.on_act_of_error hrun]
  · obtain ⟨m'', hact, left⟩ := x.on_act_of_ok hrun
    rw [hact]
    exact left.store

end LastStep

/-! ## Surveys -/

variable [Platform]

theorem careful_documentText (c : Config) (document : Path) :
    Careful (documentText c document : Act (StateM Machine) Text) :=
  .reporting (.bind (.read document) fun _ => .value _) _

theorem documentText_eq (c : Config) (document : Path) :
    (documentText c document : Act (StateM Machine) Text) =
      reporting (some document) ((backendOf c document).opening document pure) := by
  simp only [documentText, Backend.opening, bind_pure]
  rfl

/-- The text of a document is read as its backend reads it. -/
theorem on_documentText_eq_ok_iff {c : Config} {document : Path} {t : Text} :
    (on (documentText c document) m).1 = .ok t ↔
      ∃ content, (backendOf c document).Document m document content t := by
  rw [documentText_eq, on_reporting_eq_ok_iff]
  constructor
  · intro h
    obtain ⟨content, t', hdocument⟩ := Backend.exists_document_of_opening h
    rw [hdocument.on_opening, on_pure] at h
    cases h
    exact ⟨content, hdocument⟩
  · rintro ⟨content, hdocument⟩
    rw [hdocument.on_opening, on_pure]

/-- Shows what stripping makes of a document if it is asked for. -/
def previewStripped (c : Config) (document : Path) (diff : Bool) : Act (StateM Machine) Unit :=
  if diff then do
    let before ← documentText c document
    preview document true before (Backend.stripped c.strategy before)
  else pure ()

/-- What embedding finds out: the payload, and whether it would change anything. -/
def surveyEmbed (c : Config) (document manifest : Path) (diff : Bool) :
    Act (StateM Machine) (Bytes × Bool) := do
  let backend ← backendFor c document
  let payload ← payloadFrom manifest
  let before ← documentText c document
  let after ← reporting (some document) (backend.update before document payload)
  let changed ← reporting (some document) (backend.wouldChange document payload)
  preview document diff before after
  pure (payload, changed)

/-- What stripping finds out: whether there is a manifest. -/
def surveyStrip (c : Config) (document : Path) (diff : Bool) : Act (StateM Machine) Bool := do
  let backend ← backendFor c document
  let present ← reporting (some document) (backend.hasManifest document)
  previewStripped c document (present && diff)
  pure present

def summary (c : Config) (payload : Bytes) : String :=
  toString payload.length ++ "-byte manifest (" ++ c.strategy.name ++ ")"

def embedding (c : Config) (document : Path) (payload : Bytes) : LastStep Unit :=
  ⟨document, "manifest already up to date",
    "would embed " ++ summary c payload ++ "; run with --apply to write",
    "embedded " ++ summary c payload, (backendOf c document).saveAt document payload⟩

def stripping (c : Config) (document : Path) : LastStep Bool :=
  ⟨document, "no manifest to remove", "would remove manifest; run with --apply to write",
    "manifest removed", (backendOf c document).removeAt document⟩

theorem embed_eq (c : Config) (document manifest : Path) (apply diff : Bool) :
    embed c document manifest apply diff = surveyEmbed c document manifest diff >>= fun found =>
      (embedding c document found.1).act apply found.2 := by
  simp only [embed, surveyEmbed, payloadFrom, unlessEmpty, backendFor, bind_assoc, pure_bind]
  refine congrArg _ (funext fun _ => congrArg _ (funext fun payload => ?_))
  cases payload with
  | nil => simp
  | cons b payload =>
      cases diff <;> cases apply <;>
        simp [preview, LastStep.act, embedding, backendOf, summary]

theorem strip_eq (c : Config) (document : Path) (apply diff : Bool) :
    strip c document apply diff = surveyStrip c document diff >>= fun present =>
      (stripping c document).act apply present := by
  simp only [strip, surveyStrip, backendFor, bind_assoc, pure_bind]
  refine congrArg _ (funext fun _ => congrArg _ (funext fun present => ?_))
  cases present with
  | false => simp [previewStripped, LastStep.act, stripping]
  | true =>
      cases diff <;> cases apply <;>
        simp [previewStripped, preview, LastStep.act, stripping, backendOf]

theorem careful_surveyEmbed (c : Config) (document manifest : Path) (diff : Bool) :
    Careful (surveyEmbed c document manifest diff) :=
  .bind (careful_backendFor c document) fun b => .bind (careful_payloadFrom manifest) fun payload =>
    .bind (careful_documentText c document) fun before =>
      .bind (.reporting (b.quiet_update before document payload) _) fun after =>
        .bind (.reporting (b.quiet_wouldChange document payload) _) fun _ =>
          .bind (careful_preview document diff before after) fun _ => .pure _

theorem careful_previewStripped (c : Config) (document : Path) (diff : Bool) :
    Careful (previewStripped c document diff) := by
  cases diff with
  | false => exact .pure _
  | true =>
      exact .bind (careful_documentText c document) fun before =>
        careful_preview document true before _

/-- The change of a document that is there can be shown. -/
theorem exists_on_previewStripped {c : Config} {document : Path} {content : Bytes} {t : Text}
    (h : (backendOf c document).Document m document content t) (diff : Bool) :
    ∃ m₁, on (previewStripped c document diff) m = (.ok (), m₁) := by
  cases diff with
  | false => exact ⟨m, rfl⟩
  | true =>
      have htext : on (documentText c document) m = (.ok t, m) := by
        rw [documentText_eq]
        exact on_reporting_of_ok (h.on_opening pure) _
      exact ⟨_, (on_bind_of_ok htext).trans (on_say _ m)⟩

theorem careful_surveyStrip (c : Config) (document : Path) (diff : Bool) :
    Careful (surveyStrip c document diff) :=
  .bind (careful_backendFor c document) fun b =>
    .bind (.reporting (b.quiet_hasManifest document) _) fun _ =>
      .bind (careful_previewStripped c document _) fun _ => .pure _

/-! ## What surveys say -/

variable {c : Config} {document manifest : Path} {diff changed present : Bool} {payload : Bytes}

theorem exists_of_surveyEmbed
    (h : (on (surveyEmbed c document manifest diff) m).1 = .ok (payload, changed)) :
    m.store.readFile m.here manifest = .ok payload ∧ ∃ content before after,
      (backendOf c document).Document m document content before ∧
        Backend.updated c.strategy before document payload = .ok after ∧
        (on ((backendOf c document).wouldChange document payload) m).1 = .ok changed := by
  obtain ⟨b, m₁, hbackend, left₁, h⟩ :=
    exists_of_careful_bind (careful_backendFor c document) (.refl m) h
  obtain ⟨-, rfl⟩ := on_backendFor_eq_ok_iff.mp hbackend
  obtain ⟨found, m₂, hpayload, left₂, h⟩ :=
    exists_of_careful_bind (careful_payloadFrom manifest) left₁ h
  obtain ⟨before, m₃, hbefore, left₃, h⟩ :=
    exists_of_careful_bind (careful_documentText c document) left₂ h
  obtain ⟨after, m₄, hafter, left₄, h⟩ :=
    exists_of_careful_bind (.reporting (Backend.quiet_update _ before document found) _) left₃ h
  obtain ⟨needed, m₅, hneeded, left₅, h⟩ :=
    exists_of_careful_bind (.reporting (Backend.quiet_wouldChange _ document found) _) left₄ h
  obtain ⟨-, m₆, -, -, h⟩ := exists_of_careful_bind (careful_preview ..) left₅ h
  obtain ⟨rfl, rfl⟩ := Prod.mk.inj (Except.ok.inj h)
  obtain ⟨content, hdocument⟩ := on_documentText_eq_ok_iff.mp hbefore
  refine ⟨(readFile_of_payloadFrom hpayload).1, content, before, after, hdocument, ?_, ?_⟩
  · exact updated_of_update (on_reporting_eq_ok_iff.mp hafter)
  · exact on_reporting_eq_ok_iff.mp hneeded

theorem on_surveyStrip_eq_ok_iff :
    (on (surveyStrip c document diff) m).1 = .ok present ↔
      Backend.supports (assetType document) = true ∧
        (on ((backendOf c document).hasManifest document) m).1 = .ok present := by
  rw [surveyStrip, on_bind_careful_eq_ok_iff (careful_backendFor c document) fun b =>
    .bind (.reporting (b.quiet_hasManifest document) _) fun _ =>
      .bind (careful_previewStripped c document _) fun _ => .pure _]
  simp only [on_backendFor_eq_ok_iff, and_assoc, exists_and_left, exists_eq_left]
  refine and_congr_right fun _ => ?_
  rw [on_bind_careful_eq_ok_iff (.reporting (Backend.quiet_hasManifest _ document) _) fun _ =>
    .bind (careful_previewStripped c document _) fun _ => .pure _]
  constructor
  · rintro ⟨found, hfound, h⟩
    obtain ⟨-, m₁, -, -, h⟩ := exists_of_careful_bind (careful_previewStripped ..) (.refl m) h
    obtain rfl := Except.ok.inj h
    exact on_reporting_eq_ok_iff.mp hfound
  · intro hfound
    refine ⟨present, on_reporting_eq_ok_iff.mpr hfound, ?_⟩
    obtain ⟨content, t, hdocument⟩ := Backend.exists_document_of_opening hfound
    obtain ⟨m₁, hpreview⟩ := exists_on_previewStripped hdocument (present && diff)
    rw [on_bind_of_ok hpreview, on_pure]

end PageManifest.Command
