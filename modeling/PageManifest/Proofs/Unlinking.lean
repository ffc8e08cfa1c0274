import PageManifest.Platform.Bundled
import PageManifest.Proofs.Partition
import PageManifest.Proofs.Surveys

/-! # What removing beside a document deletes

A sidecar backend deletes the file that the reference of a document leads to,
whichever that is.  So a removal spares all files but the companion exactly where
the reference leads to the companion, or to no file at all.
-/

namespace PageManifest

open Run

variable {m m' : Machine} {path target : Path} {place : Location}

/-- A path is that of a file if it leads to a place that holds one. -/
theorem on_isFile_eq_true_iff : (on (Files.isFile path) m).1 = .ok true ↔
    path.hasNul = false ∧ ∃ place held, m.store.locate m.here path = .ok place ∧
      m.store.node? place = some (.file held) := by
  unfold Files.isFile Files.size?
  rw [on_bind, on_bind, on_status?]
  cases hnul : path.hasNul with
  | true => simp [on_pure]
  | false =>
      rw [Store.status, Store.find]
      cases hlocate : m.store.locate m.here path with
      | error cause =>
          cases cause <;> simp [OsFault.isAbsence, OsFault.on, OsFault.Cause.code, on_pure]
      | ok place =>
          cases hnode : m.store.node? place with
          | none => simp [hnode, OsFault.isAbsence, OsFault.on, OsFault.Cause.code, on_pure]
          | some node => cases node <;> simp [hnode, on_pure]

theorem on_remove_of_file {held : Bytes} (hnul : path.hasNul = false)
    (hlocate : m.store.locate m.here path = .ok place)
    (hnode : m.store.node? place = some (.file held)) :
    on (Files.remove path) m = (.ok true, { m with store := m.store.erase place }) := by
  rw [on_remove, hnul, Store.removeFile, Store.find, hlocate]
  simp [hnode]

/-- Deleting changes nothing where there is no file. -/
theorem store_of_remove_of_no_file (h : path.hasNul = false → ∀ place held,
    m.store.locate m.here path = .ok place → m.store.node? place ≠ some (.file held)) :
    (on (Files.remove path) m).2.store = m.store := by
  rw [on_remove]
  cases hnul : path.hasNul with
  | true => rfl
  | false =>
      rw [Store.removeFile, Store.find]
      cases hlocate : m.store.locate m.here path with
      | error cause => rfl
      | ok place =>
          cases hnode : m.store.node? place with
          | none => simp [hnode]
          | some node =>
              cases node with
              | directory => simp [hnode]
              | file held => exact absurd hnode (h hnul place held hlocate)

namespace Backend

variable {b : Backend} {content : Bytes} {t : Text}

/-- A usable reference is followed; one that is missing or remote counts as none. -/
theorem on_located_eq_some_iff {charset : Charset} {base : Path} :
    (on (Sidecar.located charset t base) m).1 = .ok (some target) ↔
      Sidecar.locate charset t base = .ok target := by
  unfold Sidecar.located
  rw [on_bind_of_ok (on_noteAll _ m)]
  cases hlocate : Sidecar.locate charset t base with
  | ok target' => simp [on_pure]
  | error failure =>
      by_cases hmissing : failure.category = .manifestMissing
      · simp [hmissing, on_pure]
      · simp only [hmissing, if_false]
        constructor
        · intro h
          cases h
        · intro h
          cases h

theorem exists_on_located_of_ok {charset : Charset} {base : Path}
    (h : Sidecar.locate charset t base = .ok target) (m : Machine) :
    ∃ m', on (Sidecar.located charset t base) m = (.ok (some target), m') ∧ m.Left m' m.store :=
  ⟨_, on_eq_of_fst (on_located_eq_some_iff.mpr h), (quiet_located charset t base).left m⟩

/-- The place of the file that is named after a document. -/
def Beside (m : Machine) (path : Path) (place : Location) : Prop :=
  ∃ target, Sidecar.companion path = .ok target ∧ m.store.locate m.here target = .ok place

section References

variable [Platform]

/-- The reference of a document leads to a place that holds a file. -/
def LeadsTo (b : Backend) (m : Machine) (path : Path) (place : Location) : Prop :=
  ∃ content t target held, b.Document m path content t ∧
    Sidecar.locate b.charset t path.parent = .ok target ∧ target.hasNul = false ∧
      m.store.locate m.here target = .ok place ∧ m.store.node? place = some (.file held)

theorem LeadsTo.left (h : b.LeadsTo m path place) (left : m.Left m' m.store) :
    b.LeadsTo m' path place := by
  obtain ⟨content, t, target, held, hdocument, htarget, hnul, hlocate, hnode⟩ := h
  refine ⟨content, t, target, held, hdocument.left left, htarget, hnul, ?_, ?_⟩
  · rw [left.store, left.here]
    exact hlocate
  · rw [left.store]
    exact hnode

theorem LeadsTo.exists_target (h : b.LeadsTo m path place)
    (hdocument : b.Document m path content t) : ∃ target,
      Sidecar.locate b.charset t path.parent = .ok target ∧
        m.store.locate m.here target = .ok place := by
  obtain ⟨content', t', target, held, hdocument', htarget, -, hlocate, -⟩ := h
  obtain ⟨-, rfl⟩ := hdocument.unique hdocument'
  exact ⟨target, htarget, hlocate⟩

theorem LeadsTo.place_ne_nil (h : b.LeadsTo m path place) : place ≠ [] := by
  obtain ⟨content, t, target, held, -, -, -, -, hnode⟩ := h
  rintro rfl
  cases hnode

/-- What telling of a manifest does with the text of a document. -/
def presence (b : Backend) (path : Path) (t : Text) : Run (StateM Machine) Bool := do
  match ← Sidecar.located b.charset t path.parent with
  | some target => Files.isFile target
  | none => pure false

theorem hasManifest_sidecar (hb : b.strategy = .sidecar) (path : Path) :
    b.hasManifest path = b.opening path (b.presence path) := by
  rw [hasManifest, hb]
  rfl

/-- What removing does with the text of a document. -/
def unlinking (b : Backend) (path : Path) (t : Text) : Run (StateM Machine) Bool := do
  let removed ← Sidecar.remove b.charset t path.parent
  if removed then
    Files.noteAll [Log.Record.info "provmark.backends.sidecar"
      ("sidecar: removed companion manifest of " ++ path.toString)]
  pure removed

theorem removeAt_sidecar (hb : b.strategy = .sidecar) (path : Path) :
    b.removeAt path = b.opening path (b.unlinking path) := by
  rw [removeAt, hb]
  rfl

/-- A document has a manifest exactly if its reference leads to a file. -/
theorem on_hasManifest_eq_true_iff (hb : b.strategy = .sidecar) :
    (on (b.hasManifest path) m).1 = .ok true ↔ ∃ place, b.LeadsTo m path place := by
  rw [hasManifest_sidecar hb]
  constructor
  · intro h
    obtain ⟨content, t, hdocument⟩ := exists_document_of_opening h
    obtain ⟨r, m₁, hlocated, left⟩ := exists_on_of_quiet (quiet_located b.charset t path.parent) m
    rw [hdocument.on_opening, presence, on_bind, hlocated] at h
    rcases r with failure | _ | target
    · cases h
    · cases h
    · obtain ⟨hnul, place, held, hlocate, hnode⟩ := on_isFile_eq_true_iff.mp h
      rw [left.store, left.here] at hlocate
      rw [left.store] at hnode
      refine ⟨place, content, t, target, held, hdocument, ?_, hnul, hlocate, hnode⟩
      exact on_located_eq_some_iff.mp (congrArg Prod.fst hlocated)
  · rintro ⟨place, content, t, target, held, hdocument, htarget, hnul, hlocate, hnode⟩
    obtain ⟨m₁, hlocated, left⟩ := exists_on_located_of_ok htarget m
    rw [hdocument.on_opening, presence, on_bind_of_ok hlocated]
    rw [← left.store, ← left.here] at hlocate
    rw [← left.store] at hnode
    exact on_isFile_eq_true_iff.mpr ⟨hnul, place, held, hlocate, hnode⟩

/-! ## The effect of a removal -/

theorem LeadsTo.on_removeAt (hb : b.strategy = .sidecar) (h : b.LeadsTo m path place) :
    ∃ m', on (b.removeAt path) m = (.ok true, m') ∧ m.Left m' (m.store.erase place) := by
  obtain ⟨content, t, target, held, hdocument, htarget, hnul, hlocate, hnode⟩ := h
  obtain ⟨m₁, hlocated, left⟩ := exists_on_located_of_ok htarget m
  rw [← left.store, ← left.here] at hlocate
  rw [← left.store] at hnode
  have hremoved : on (Sidecar.remove b.charset t path.parent) m =
      (.ok true, { m₁ with store := m₁.store.erase place }) := by
    unfold Sidecar.remove
    rw [on_bind_of_ok hlocated]
    exact on_remove_of_file hnul hlocate hnode
  rw [removeAt_sidecar hb, hdocument.on_opening, unlinking, on_bind_of_ok hremoved]
  simp only [if_true]
  rw [on_bind_of_ok (on_noteAll _ _), on_pure]
  refine ⟨_, rfl, ?_, left.here, left.fresh⟩
  exact congrArg (fun s : Store => s.erase place) left.store

theorem LeadsTo.updated (hb : b.strategy = .sidecar) (h : b.LeadsTo m path place) :
    m.store.Updated (on (b.removeAt path) m).2.store place none := by
  obtain ⟨m', hremove, left⟩ := h.on_removeAt hb
  rw [hremove, Store.Updated, left.store]
  exact Store.node?_erase m.store h.place_ne_nil

/-- Without a file that the reference leads to, a removal deletes none. -/
theorem store_of_removeAt_of_nowhere (hb : b.strategy = .sidecar)
    (h : ∀ place, ¬ b.LeadsTo m path place) : (on (b.removeAt path) m).2.store = m.store := by
  rw [removeAt_sidecar hb]
  rcases b.document_or_failure m path Bool with ⟨content, t, hdocument⟩ | ⟨failure, hfail⟩
  · rw [hdocument.on_opening, unlinking, store_of_bind_quiet, Sidecar.remove, on_bind]
    · obtain ⟨r, m₁, hlocated, left⟩ :=
        exists_on_of_quiet (quiet_located b.charset t path.parent) m
      rw [hlocated]
      rcases r with failure | _ | target
      · exact left.store
      · exact left.store
      · refine (store_of_remove_of_no_file ?_).trans left.store
        intro hnul place held hlocate hnode
        rw [left.store, left.here] at hlocate
        rw [left.store] at hnode
        refine h place ⟨content, t, target, held, hdocument, ?_, hnul, hlocate, hnode⟩
        exact on_located_eq_some_iff.mp (congrArg Prod.fst hlocated)
    · intro removed
      cases removed with
      | true => exact .bind (.noteAll _) fun _ => .pure _
      | false => exact .pure _
  · rw [hfail]

/-- A removal changes the place that the reference leads to, if there is one, and no other. -/
theorem changed_by_removeAt_iff (hb : b.strategy = .sidecar) (place : Location) :
    (on (b.removeAt path) m).2.store.node? place ≠ m.store.node? place ↔
      b.LeadsTo m path place := by
  constructor
  · intro hchanged
    by_cases hsome : ∃ place, b.LeadsTo m path place
    · obtain ⟨other, hother⟩ := hsome
      rw [hother.updated hb place] at hchanged
      by_cases hplace : place = other
      · rw [hplace]
        exact hother
      · rw [if_neg hplace] at hchanged
        exact absurd rfl hchanged
    · have hsame := store_of_removeAt_of_nowhere hb fun place h => hsome ⟨place, h⟩
      rw [hsame] at hchanged
      exact absurd rfl hchanged
  · intro h
    rw [h.updated hb place, if_pos rfl]
    obtain ⟨-, -, -, held, -, -, -, -, hnode⟩ := h
    rw [hnode]
    simp

/-! ## Stripping -/

/-- Stripping that is applied removes the manifest of a document that is handled at all. -/
theorem changed_by_strip_iff {c : Config} (hc : c.strategy = .sidecar) (diff : Bool)
    (place : Location) :
    (on (Command.strip c path true diff) m).2.store.node? place ≠
        m.store.node? place ↔
      supports (Command.assetType path) = true ∧
        (Command.backendOf c path).LeadsTo m path place := by
  have hb : (Command.backendOf c path).strategy = .sidecar := hc
  have hfound : supports (Command.assetType path) = true ∧
      (Command.backendOf c path).LeadsTo m path place →
        (on (Command.surveyStrip c path diff) m).1 = .ok true :=
    fun h => Command.on_surveyStrip_eq_ok_iff.mpr
      ⟨h.1, (on_hasManifest_eq_true_iff hb).mpr ⟨place, h.2⟩⟩
  obtain ⟨r, m₁, hsurvey, left⟩ := (Command.careful_surveyStrip c path diff).exists_on m
  rw [hsurvey] at hfound
  rw [Command.strip_eq, on_bind, hsurvey]
  rcases r with stop | present
  · refine iff_of_false (fun hchanged => hchanged ?_) fun h => by cases hfound h
    simp only [left.store]
  cases present with
  | false =>
      refine iff_of_false (fun hchanged => hchanged ?_) fun h => by cases hfound h
      obtain ⟨m₂, hidle, left'⟩ := (Command.stripping c path).on_act_idle true m₁
      simp only [hidle, left'.store, left.store]
  | true =>
      have hsupported := (Command.on_surveyStrip_eq_ok_iff.mp (congrArg Prod.fst hsurvey)).1
      have hchanged : (on ((Command.backendOf c path).removeAt path) m₁).2.store.node? place ≠
          m₁.store.node? place ↔ (Command.backendOf c path).LeadsTo m₁ path place :=
        changed_by_removeAt_iff hb place
      rw [left.store] at hchanged
      simp only [Command.LastStep.store_of_act, hsupported, true_and]
      refine Iff.trans hchanged ?_
      exact ⟨fun h => h.left left.symm, fun h => h.left left⟩

/--
A removal, and stripping with it, spares every place but the companion's exactly if
the reference leads to the companion or to no file.  It spares the document exactly
if the reference does not lead to the document itself.
-/
theorem removal_spares_others_iff (hb : b.strategy = .sidecar) (m : Machine) (path : Path) :
    ((∀ place, (on (b.removeAt path) m).2.store.node? place ≠ m.store.node? place →
        Beside m path place) ↔
      ∀ place, b.LeadsTo m path place → Beside m path place) ∧
    (∀ document, m.store.locate m.here path = .ok document →
      ((on (b.removeAt path) m).2.store.node? document = m.store.node? document ↔
        ¬ b.LeadsTo m path document)) ∧
    (∀ place, b.LeadsTo m path place → (on (b.removeAt path) m).1 = .ok true ∧
      m.store.Updated (on (b.removeAt path) m).2.store place none) ∧
    ∀ c diff, b = Command.backendOf c path →
      ((∀ place, (on (Command.strip c path true diff) m).2.store.node? place ≠
          m.store.node? place → Beside m path place) ↔
        (supports (Command.assetType path) = true →
          ∀ place, b.LeadsTo m path place → Beside m path place)) := by
  refine ⟨?_, ?_, ?_, ?_⟩
  · exact forall_congr' fun place => by rw [changed_by_removeAt_iff hb place]
  · intro document _
    rw [← changed_by_removeAt_iff hb document, ne_eq, Classical.not_not]
  · intro place h
    obtain ⟨m', hremove, -⟩ := h.on_removeAt hb
    exact ⟨congrArg Prod.fst hremove, h.updated hb⟩
  · rintro c diff rfl
    have hchanged : ∀ place, (on (Command.strip c path true diff) m).2.store.node?
        place ≠ m.store.node? place ↔ supports (Command.assetType path) = true ∧
          (Command.backendOf c path).LeadsTo m path place := changed_by_strip_iff hb diff
    constructor
    · intro h hsupported place hleads
      exact h place ((hchanged place).mpr ⟨hsupported, hleads⟩)
    · intro h place hplace
      obtain ⟨hsupported, hleads⟩ := (hchanged place).mp hplace
      exact h hsupported place hleads

end References

section Bundled

attribute [local instance] Platform.bundled

def pageSidecar : Backend :=
  Command.backendOf { Config.standard with strategy := .sidecar } ⟨.none, ["page.html"]⟩

def referringText (target : String) : Text :=
  "<head>".toList ++ Markup.referenceTag target.toList ++ "</head>".toList

/-- A document with a reference, and a file by the name of its companion. -/
def referringMachine (target : String) : Machine :=
  Machine.start ⟨[(["page.html"], .file (Charset.Codec.utf8.body (referringText target))),
    (["page.html.c2pa"], .file [1])]⟩ [] [.sample]

def pagePath : Path :=
  ⟨.none, ["page.html"]⟩

-- The reference leads to the companion file, which is deleted.
theorem removal_spares_others_page :
    (on (pageSidecar.removeAt pagePath) (referringMachine "page.html.c2pa")).1 = .ok true ∧
    ∀ place, (on (pageSidecar.removeAt pagePath)
        (referringMachine "page.html.c2pa")).2.store.node? place ≠
          (referringMachine "page.html.c2pa").store.node? place →
      Beside (referringMachine "page.html.c2pa") pagePath place := by
  refine ⟨eq_ok_of_toOption (by decide +kernel),
    (removal_spares_others_iff rfl (referringMachine "page.html.c2pa") pagePath).1.mpr ?_⟩
  intro place hleads
  have hcompanion : Sidecar.companion pagePath = .ok ⟨.none, ["page.html.c2pa"]⟩ :=
    eq_ok_of_toOption (by decide +kernel)
  have hhere : pageSidecar.Document (referringMachine "page.html.c2pa") pagePath
      (Charset.Codec.utf8.body (referringText "page.html.c2pa"))
      (referringText "page.html.c2pa") :=
    ⟨by decide +kernel, eq_ok_of_toOption (by decide +kernel),
      eq_ok_of_toOption (by decide +kernel)⟩
  have hreferred : Sidecar.locate pageSidecar.charset (referringText "page.html.c2pa")
      pagePath.parent = .ok ⟨.none, ["page.html.c2pa"]⟩ := eq_ok_of_toOption (by decide +kernel)
  obtain ⟨target, htarget, hlocate⟩ := hleads.exists_target hhere
  obtain rfl := Except.ok.inj (htarget.symm.trans hreferred)
  exact ⟨_, hcompanion, hlocate⟩

theorem removal_deletes_document :
    (on (pageSidecar.removeAt pagePath) (referringMachine "page.html")).1 = .ok true ∧
    ((referringMachine "page.html").store.node? ["page.html"]).isSome = true ∧
    (on (pageSidecar.removeAt pagePath) (referringMachine "page.html")).2.store.node?
      ["page.html"] = none :=
  ⟨eq_ok_of_toOption (by decide +kernel), by decide +kernel, by decide +kernel⟩

end Bundled

end Backend

end PageManifest
