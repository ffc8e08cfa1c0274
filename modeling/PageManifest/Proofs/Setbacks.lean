import PageManifest.Proofs.Documents

/-! # Operations on documents under strain

Whatever step of an operation is refused, it has done no more than the steps in front of
that one.  An operation that replaces one file, and only looks at files before, fails
without a change; one that replaces two can fail between them.
-/

namespace PageManifest

open Run

namespace Strain

variable {α β : Type} {strain : Strain} {m m' : Machine} {path : Path} {content : Bytes}

/-- A place where nothing was holds a file, since the deletion of that is refused. -/
def Clutters (strain : Strain) (s s' : Store) : Prop :=
  ∃ (m : Machine) (path : Path) (spot : Location) (part : Bytes), m.store = s ∧
    m.Free path spot ∧ strain.remove (m.putting spot part) path.tidy ≠ none ∧
      s' = s.set spot (.file part)

/-- All files are as they were, but for what lies about because its deletion is refused. -/
def Keeps (strain : Strain) (s s' : Store) : Prop :=
  s' = s ∨ strain.Clutters s s'

theorem Leftover.clutters {tempPrefix : String} {target : Path}
    (h : strain.Leftover m tempPrefix target content m') : strain.Clutters m.store m'.store := by
  obtain ⟨path, -, spot, part, hfree, -, hremove, rfl⟩ := h
  exact ⟨m, path, spot, part, rfl, hfree, hremove, rfl⟩

/-! ## Steps that leave all files alone -/

/-- An operation that leaves all files as they are under some strain. -/
def Still (strain : Strain) (x : Run (ReaderT Strain (StateM Machine)) α) : Prop :=
  ∀ m : Machine, m.Left (on (strain.under x) m).2 m.store

theorem still_pure (a : α) : strain.Still (pure a) :=
  fun m => .refl m

theorem still_value (r : Except Failure α) : strain.Still (Files.value r) :=
  fun m => .refl m

theorem under_noteAll (strain : Strain) (records : List Log.Record) :
    strain.under (Files.noteAll records) = Files.noteAll records := by
  induction records with
  | nil => rfl
  | cons record records ih =>
      have hsplit :
          (Files.noteAll (record :: records) : Run (ReaderT Strain (StateM Machine)) Unit) =
            ExceptT.lift (Host.note record) >>= fun _ => Files.noteAll records := rfl
      rw [hsplit, under_bind, ih]
      rfl

theorem on_under_noteAll (strain : Strain) (records : List Log.Record) (m : Machine) :
    on (strain.under (Files.noteAll records)) m = (.ok (), m.noting records) := by
  rw [under_noteAll, on_noteAll]

theorem still_noteAll (records : List Log.Record) : strain.Still (Files.noteAll records) := by
  intro m
  rw [on_under_noteAll]
  exact m.left_noting records

theorem on_under_read (strain : Strain) (path : Path) (m : Machine) :
    on (strain.under (Files.read path)) m = on (Files.read path) m ∨
      ∃ fault, on (strain.under (Files.read path)) m = (.error (.os fault), m) := by
  cases h : strain.read m path with
  | none => exact .inl (on_spared strain _ (strain.read · path) _ h)
  | some fault => exact .inr ⟨fault, on_refused strain _ (strain.read · path) _ h⟩

theorem still_read (path : Path) : strain.Still (Files.read path) := by
  intro m
  rcases on_under_read strain path m with hread | ⟨fault, hread⟩
  · rw [hread, on_read_unchanged]
    exact .refl m
  · rw [hread]
    exact .refl m

/-! ## Operations that fail without a change -/

/-- An operation that fails without a change to any file, under some strain. -/
def Whole (strain : Strain) (x : Run (ReaderT Strain (StateM Machine)) α) : Prop :=
  ∀ m failure m', on (strain.under x) m = (.error failure, m') →
    strain.Keeps m.store m'.store

theorem Still.whole {x : Run (ReaderT Strain (StateM Machine)) α} (h : strain.Still x) :
    strain.Whole x := by
  intro m failure m' hrun
  have hstore := (h m).store
  rw [hrun] at hstore
  exact .inl hstore

theorem whole_replace (tempPrefix : String) (target : Path) (content : Bytes) :
    strain.Whole (Files.replace tempPrefix target content) := by
  intro m failure m' hrun
  rcases leftover_of_on_under_replace hrun with rfl | hleft
  · exact .inl rfl
  · exact .inr hleft.clutters

/-- Behind steps that leave all files alone, an operation is as whole as it is by itself. -/
theorem Still.bind_whole {x : Run (ReaderT Strain (StateM Machine)) α}
    {f : α → Run (ReaderT Strain (StateM Machine)) β} (hx : strain.Still x)
    (hf : ∀ a, strain.Whole (f a)) : strain.Whole (x >>= f) := by
  intro m failure m' hrun
  rw [under_bind] at hrun
  rcases exists_of_on_bind_error hrun with hfirst | ⟨a, m₁, hfirst, hrest⟩
  · exact hx.whole m failure m' hfirst
  · have hstore := (hx m).store
    rw [hfirst] at hstore
    have hkeeps := hf a m₁ failure m' hrest
    rw [hstore] at hkeeps
    exact hkeeps

/-- An operation that never fails under some strain. -/
def Sure (strain : Strain) (x : Run (ReaderT Strain (StateM Machine)) α) : Prop :=
  ∀ m, ∃ a m', on (strain.under x) m = (.ok a, m')

theorem sure_pure (a : α) : strain.Sure (pure a) :=
  fun m => ⟨a, m, rfl⟩

theorem sure_noteAll (records : List Log.Record) : strain.Sure (Files.noteAll records) :=
  fun m => ⟨(), m.noting records, on_under_noteAll strain records m⟩

theorem Sure.bind {x : Run (ReaderT Strain (StateM Machine)) α}
    {f : α → Run (ReaderT Strain (StateM Machine)) β} (hx : strain.Sure x)
    (hf : ∀ a, strain.Sure (f a)) : strain.Sure (x >>= f) := by
  intro m
  obtain ⟨a, m₁, hfirst⟩ := hx m
  rw [under_bind, on_bind_of_ok hfirst]
  exact hf a m₁

/-- An operation that is whole stays so in front of steps that never fail. -/
theorem Whole.bind_sure {x : Run (ReaderT Strain (StateM Machine)) α}
    {f : α → Run (ReaderT Strain (StateM Machine)) β} (hx : strain.Whole x)
    (hf : ∀ a, strain.Sure (f a)) : strain.Whole (x >>= f) := by
  intro m failure m' hrun
  rw [under_bind] at hrun
  rcases exists_of_on_bind_error hrun with hfirst | ⟨a, m₁, -, hrest⟩
  · exact hx m failure m' hfirst
  · obtain ⟨b, m₂, hsure⟩ := hf a m₁
    rw [hsure] at hrest
    cases hrest

end Strain

namespace Backend

variable [Platform] {b : Backend} {strain : Strain} {m m' : Machine} {path : Path}
  {payload : Bytes} {failure : Failure}

/-- A save inside a document replaces one file, and that at the end. -/
theorem whole_saveAt_inline (hb : b.strategy = .inline) (path : Path) (payload : Bytes) :
    strain.Whole (b.saveAt path payload) := by
  rw [saveAt, hb]
  refine (Strain.still_read path).bind_whole fun content =>
    (Strain.still_value _).bind_whole fun t => (Strain.still_noteAll _).bind_whole fun _ =>
      (Strain.still_value _).bind_whole fun octets => ?_
  exact (Strain.whole_replace _ _ _).bind_sure fun _ => Strain.sure_noteAll _

theorem whole_removeAt_inline (hb : b.strategy = .inline) (path : Path) :
    strain.Whole (b.removeAt path) := by
  rw [removeAt, hb]
  refine (Strain.still_read path).bind_whole fun content =>
    (Strain.still_value _).bind_whole fun t => (Strain.still_value _).bind_whole fun octets => ?_
  split
  · exact (Strain.whole_replace _ _ _).bind_sure fun _ =>
      (Strain.sure_noteAll _).bind fun _ => Strain.sure_pure true
  · exact (Strain.still_pure false).whole

/-- On a document an operation fails on the machine as it is, or goes on with the text. -/
theorem on_under_opening {α : Type} (b : Backend) (strain : Strain) (path : Path) (m : Machine)
    (next : Text → Run (ReaderT Strain (StateM Machine)) α) :
    (∃ failure, on (strain.under (Files.read path >>= fun content =>
        b.decoded content >>= next)) m = (.error failure, m)) ∨
      ∃ content t, b.Document m path content t ∧
        on (strain.under (Files.read path >>= fun content => b.decoded content >>= next)) m =
          on (strain.under (next t)) m := by
  rw [Strain.under_bind]
  rcases Strain.on_under_read strain path m with hread | ⟨fault, hread⟩
  · rcases hplain : on (Files.read path) m with ⟨failure | content, m₁⟩
    · have hsame : m₁ = m := by
        have hsecond := on_read_unchanged path m
        rw [hplain] at hsecond
        exact hsecond
      rw [hplain, hsame] at hread
      exact .inl ⟨failure, on_bind_of_error hread⟩
    · rw [hplain] at hread
      obtain ⟨hnul, hcontent, rfl⟩ := on_read_eq_ok_iff.mp hplain
      rw [on_bind_of_ok hread, Strain.under_bind]
      cases hdecode : b.charset.decode content with
      | error fault =>
          have hdecoded : on (strain.under (b.decoded content)) m₁ =
              (.error (.charset fault), m₁) := on_decoded_of_error hdecode m₁
          exact .inl ⟨_, on_bind_of_error hdecoded⟩
      | ok t =>
          have hdecoded : on (strain.under (b.decoded content)) m₁ = (.ok t, m₁) :=
            on_decoded_of_ok hdecode m₁
          exact .inr ⟨content, t, ⟨hnul, hcontent, hdecode⟩, on_bind_of_ok hdecoded⟩
  · exact .inl ⟨_, on_bind_of_error hread⟩

/-! ## Saving beside a document -/

/-- Behind its companion file a save replaces the document, if that is to change at all. -/
theorem whole_link (b : Backend) (path target : Path) (t updated : Text) :
    strain.Whole (b.link path target t updated) := by
  unfold link
  split
  · exact (Strain.still_value _).bind_whole fun octets =>
      (Strain.whole_replace _ _ _).bind_sure fun _ => Strain.sure_pure target
  · exact (Strain.still_pure target).whole

theorem on_under_link_of_eq (b : Backend) (path target : Path) (t : Text) (m : Machine) :
    on (strain.under (b.link path target t t)) m = (.ok target, m) := by
  unfold link
  rw [if_neg (not_not_intro rfl)]
  rfl

omit [Platform] in
theorem whole_writeCompanion (tempPrefix : String) (path : Path) (payload : Bytes) :
    strain.Whole (Sidecar.writeCompanion tempPrefix path payload) :=
  (Strain.still_value _).bind_whole fun target => (Strain.whole_replace _ _ _).bind_sure fun _ =>
    (Strain.sure_noteAll _).bind fun _ => Strain.sure_pure target

omit [Platform] in
theorem exists_of_on_under_writeCompanion {tempPrefix : String} {target : Path}
    (h : on (strain.under (Sidecar.writeCompanion tempPrefix path payload)) m = (.ok target, m')) :
    Sidecar.companion path = .ok target ∧ ∃ place, m.store.locate m.here target = .ok place ∧
      m'.store = m.store.set place (.file payload) := by
  rw [Sidecar.writeCompanion, Strain.under_bind] at h
  obtain ⟨target', m₁, hvalue, hrest⟩ := exists_of_on_bind h
  obtain ⟨hnamed, rfl⟩ := Prod.mk.inj (hvalue : (Sidecar.companion path, m) = _)
  rw [Strain.under_bind] at hrest
  obtain ⟨size, m₂, hreplaced, hnoted⟩ := exists_of_on_bind hrest
  rw [Strain.under_bind, on_bind_of_ok (Strain.on_under_noteAll strain _ m₂)] at hnoted
  cases hnoted
  obtain ⟨-, -, place, -, -, hwritable, -, rfl⟩ := Strain.exists_of_on_under_replace hreplaced
  exact ⟨hnamed, place, hwritable.located, rfl⟩

/--
Wherever a save beside a document stops, all files are as they were, or the companion file
has been replaced and the document is still to get another text.
-/
theorem keeps_of_saveAt_error (hb : b.strategy = .sidecar)
    (h : on (strain.under (b.saveAt path payload)) m = (.error failure, m')) :
    strain.Keeps m.store m'.store ∨ ∃ content t target place, b.Document m path content t ∧
      Sidecar.companion path = .ok target ∧ Sidecar.insertReference t target.name.toList ≠ t ∧
      m.store.locate m.here target = .ok place ∧
      strain.Keeps (m.store.set place (.file payload)) m'.store := by
  have hsteps : b.saveAt path payload = (Files.read path >>= fun content =>
      b.decoded content >>= fun t =>
        Sidecar.writeCompanion b.config.tempPrefix path payload >>= fun target =>
          Files.noteAll (Sidecar.insertNotices t) >>= fun _ =>
            b.link path target t (Sidecar.insertReference t target.name.toList)) >>= fun _ =>
              (pure () : Run (ReaderT Strain (StateM Machine)) Unit) := by
    rw [saveAt, hb]
    rfl
  rw [hsteps, Strain.under_bind] at h
  rcases exists_of_on_bind_error h with hwrite | ⟨_, _, -, hpure⟩
  case inr => cases hpure
  rcases on_under_opening b strain path m fun t =>
      Sidecar.writeCompanion b.config.tempPrefix path payload >>= fun target =>
        Files.noteAll (Sidecar.insertNotices t) >>= fun _ =>
          b.link path target t (Sidecar.insertReference t target.name.toList) with
    ⟨failure', hfail⟩ | ⟨content, t, hdocument, hopened⟩
  · rw [hfail] at hwrite
    cases hwrite
    exact .inl (.inl rfl)
  rw [hopened, Strain.under_bind] at hwrite
  rcases exists_of_on_bind_error hwrite with hcompanion | ⟨target, m₁, hcompanion, hrest⟩
  · exact .inl (whole_writeCompanion _ _ _ m failure m' hcompanion)
  obtain ⟨hnamed, place, hlocate, hstore⟩ := exists_of_on_under_writeCompanion hcompanion
  rw [Strain.under_bind, on_bind_of_ok (Strain.on_under_noteAll strain _ m₁)] at hrest
  refine .inr ⟨content, t, target, place, hdocument, hnamed, fun hsame => ?_, hlocate, ?_⟩
  · rw [hsame, on_under_link_of_eq] at hrest
    cases hrest
  · have hkeeps := whole_link b path target t _ _ failure m' hrest
    rw [← hstore]
    exact hkeeps

end Backend

end PageManifest
