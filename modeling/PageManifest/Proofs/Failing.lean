import PageManifest.Proofs.Unlinking

/-! # Why operations fail

An operation that only looks at files fails where one of its steps does, and each step
finds the machine that the operation started from.  So the reasons for which it fails
are read off its steps one by one.
-/

namespace PageManifest

open Run

variable {ε α β : Type} {P : ε → Prop} {m m' : Machine}

/-! ## Results -/

/-- A result that is a failure, for a reason of some kind. -/
def Refuses (P : ε → Prop) (r : Except ε α) : Prop :=
  ∃ e, r = .error e ∧ P e

namespace Refuses

instance [DecidablePred P] (r : Except ε α) : Decidable (Refuses P r) :=
  match r with
  | .error e =>
      decidable_of_iff (P e) ⟨fun h => ⟨e, rfl, h⟩, fun ⟨_, he, h⟩ => by cases he; exact h⟩
  | .ok _ => isFalse fun ⟨_, h, _⟩ => by cases h

@[simp] theorem ok_iff (a : α) : Refuses P (.ok a : Except ε α) ↔ False := by
  simp [Refuses]

@[simp] theorem error_iff (e : ε) : Refuses P (.error e : Except ε α) ↔ P e := by
  simp [Refuses]

theorem bind_iff (r : Except ε α) (f : α → Except ε β) :
    Refuses P (r >>= f) ↔ Refuses P r ∨ ∃ a, r = .ok a ∧ Refuses P (f a) := by
  cases r with
  | error e =>
      change Refuses P (.error e) ↔ _
      simp
  | ok a =>
      change Refuses P (f a) ↔ _
      simp

theorem map_iff (f : α → β) (r : Except ε α) : Refuses P (f <$> r) ↔ Refuses P r := by
  cases r with
  | error e =>
      change Refuses P (.error e) ↔ _
      simp
  | ok a =>
      change Refuses P (.ok (f a)) ↔ _
      simp

end Refuses

/-! ## Operations -/

/-- An operation that fails on a machine, for a reason of some kind. -/
def FailsFor (P : ε → Prop) (x : ExceptT ε (StateM Machine) α) (m : Machine) : Prop :=
  Refuses P (x.run m).1

namespace FailsFor

@[simp] theorem pure_iff (a : α) :
    FailsFor P (pure a : ExceptT ε (StateM Machine) α) m ↔ False :=
  Refuses.ok_iff a

@[simp] theorem throw_iff (e : ε) :
    FailsFor P (throw e : ExceptT ε (StateM Machine) α) m ↔ P e :=
  Refuses.error_iff e

/-- What is done first fails, or what follows it fails on the machine that is left. -/
theorem bind_iff_of_run {x : ExceptT ε (StateM Machine) α}
    {f : α → ExceptT ε (StateM Machine) β} {r : Except ε α} (h : x.run m = (r, m')) :
    FailsFor P (x >>= f) m ↔
      Refuses P r ∨ ∃ a, r = .ok a ∧ FailsFor P (f a) m' := by
  have hrun : (x >>= f).run m = (ExceptT.bindCont f r : StateM Machine _) m' := by
    change (match x.run m with | (r, m') => (ExceptT.bindCont f r : StateM Machine _) m') = _
    rw [h]
  rw [FailsFor, hrun]
  cases r with
  | error e =>
      change Refuses P (.error e) ↔ _
      simp
  | ok a =>
      change FailsFor P (f a) m' ↔ _
      simp

theorem congr {x : ExceptT ε (StateM Machine) α} (hx : Quiet x) (left : m.Left m' m.store) :
    FailsFor P x m' ↔ FailsFor P x m := by
  rw [FailsFor, FailsFor, hx.same m m' left]

/-- Steps that leave the files alone fail as they do on the machine they start from. -/
theorem bind_iff {x : ExceptT ε (StateM Machine) α} {f : α → ExceptT ε (StateM Machine) β}
    (hx : Quiet x) (hf : ∀ a, Quiet (f a)) :
    FailsFor P (x >>= f) m ↔
      FailsFor P x m ∨ ∃ a, (x.run m).1 = .ok a ∧ FailsFor P (f a) m := by
  have left := hx.left m
  have hrun : x.run m = ((x.run m).1, (x.run m).2) := rfl
  rw [bind_iff_of_run hrun]
  simp only [congr (hf _) left]
  rfl

/-! ## Steps of operations -/

section Steps

variable {P : Failure → Prop} {path : Path}

@[simp] theorem value_iff (r : Except Failure α) :
    FailsFor P (Files.value r : Run (StateM Machine) α) m ↔ Refuses P r :=
  Iff.rfl

@[simp] theorem noteAll_iff (records : List Log.Record) :
    FailsFor P (Files.noteAll records : Run (StateM Machine) Unit) m ↔ False := by
  change Refuses P (on (Files.noteAll records) m).1 ↔ _
  rw [on_noteAll]
  exact Refuses.ok_iff ()

end Steps

end FailsFor

theorem Run.failsFor_bind_iff {P : Failure → Prop} {x : Run (StateM Machine) α}
    {f : α → Run (StateM Machine) β} (hx : Quiet x) (hf : ∀ a, Quiet (f a)) :
    FailsFor P (x >>= f) m ↔
      FailsFor P x m ∨ ∃ a, (on x m).1 = .ok a ∧ FailsFor P (f a) m :=
  FailsFor.bind_iff hx hf

/-! ## Looking for files -/

/-- A machine holds a file of some content at a path. -/
structure Machine.Holds (m : Machine) (path : Path) (content : Bytes) : Prop where
  noNul : path.hasNul = false
  read : m.store.readFile m.here path = .ok content

/-- A path that cannot even be looked at, since it or one of its names is too long. -/
structure Machine.Overlong (m : Machine) (path : Path) : Prop where
  noNul : path.hasNul = false
  located : m.store.locate m.here path = .error .nameTooLong

section Files

variable {path : Path} {content : Bytes}

theorem Machine.Holds.unique {content' : Bytes} (h : m.Holds path content)
    (h' : m.Holds path content') : content' = content :=
  Except.ok.inj (h'.read.symm.trans h.read)

theorem Machine.Holds.not_overlong (h : m.Holds path content) : ¬ m.Overlong path := by
  intro hlong
  obtain ⟨place, hlocate, -⟩ := Store.readFile_eq_ok_iff.mp h.read
  rw [hlong.located] at hlocate
  cases hlocate

theorem on_isFile_eq_true_iff_holds :
    (on (Files.isFile path) m).1 = .ok true ↔ ∃ content, m.Holds path content := by
  rw [on_isFile_eq_true_iff]
  constructor
  · rintro ⟨hnul, place, content, hlocate, hnode⟩
    exact ⟨content, hnul, Store.readFile_eq_ok_iff.mpr ⟨place, hlocate, hnode⟩⟩
  · rintro ⟨content, hnul, hread⟩
    obtain ⟨place, hlocate, hnode⟩ := Store.readFile_eq_ok_iff.mp hread
    exact ⟨hnul, place, content, hlocate, hnode⟩

/-- A walk is refused for what is on the way, or for the length of a name. -/
theorem Store.cause_of_walk {s : Store} {names : List String} {here : Location}
    {cause : OsFault.Cause} (h : s.walk here names = .error cause) :
    cause = .nameTooLong ∨ cause = .notDirectory ∨ cause = .noEntry := by
  induction names generalizing here with
  | nil => cases h
  | cons name names ih =>
      rw [walk] at h
      split at h
      · exact ih h
      · split at h
        · exact ih h
        · split at h
          · exact .inl (Except.error.inj h).symm
          · split at h
            · cases h
            · split at h
              · exact ih h
              · exact .inr (.inl (Except.error.inj h).symm)
              · exact .inr (.inr (Except.error.inj h).symm)

theorem Store.cause_of_locate {s : Store} {here : Location} {cause : OsFault.Cause}
    (h : s.locate here path = .error cause) :
    cause = .nameTooLong ∨ cause = .notDirectory ∨ cause = .noEntry := by
  unfold locate at h
  split at h
  · exact .inl (Except.error.inj h).symm
  · exact cause_of_walk h

theorem Machine.overlong_iff : m.Overlong path ↔
    path.hasNul = false ∧ m.store.locate m.here path = .error .nameTooLong :=
  ⟨fun h => ⟨h.noNul, h.located⟩, fun h => ⟨h.1, h.2⟩⟩

/-- Looking for a file fails at a path that is too long, and nowhere else. -/
theorem on_isFile_eq_error_iff {failure : Failure} :
    (on (Files.isFile path) m).1 = .error failure ↔ m.Overlong path ∧
      failure = .os (OsFault.on .nameTooLong path.toString) := by
  unfold Files.isFile Files.size?
  rw [on_bind, on_bind, on_status?, Machine.overlong_iff]
  cases hnul : path.hasNul with
  | true => simp [on_pure]
  | false =>
      rw [Store.status, Store.find]
      cases hlocate : m.store.locate m.here path with
      | error cause =>
          obtain rfl | rfl | rfl := Store.cause_of_locate hlocate <;>
            simp [OsFault.isAbsence, OsFault.on, OsFault.Cause.code, on_pure, eq_comm]
      | ok place =>
          cases hnode : m.store.node? place with
          | none => simp [hnode, OsFault.isAbsence, OsFault.on, OsFault.Cause.code, on_pure]
          | some node => cases node <;> simp [hnode, on_pure]

/-- A path is too long to be looked at, or that of a file, or that of none. -/
theorem isFile_cases (path : Path) (m : Machine) :
    m.Overlong path ∨
      ((∃ content, m.Holds path content) ∧ (on (Files.isFile path) m).1 = .ok true) ∨
      ((∀ content, ¬ m.Holds path content) ∧ (on (Files.isFile path) m).1 = .ok false) := by
  cases hfile : (on (Files.isFile path) m).1 with
  | error failure => exact .inl (on_isFile_eq_error_iff.mp hfile).1
  | ok present =>
      cases present with
      | true => exact .inr (.inl ⟨on_isFile_eq_true_iff_holds.mp hfile, rfl⟩)
      | false =>
          refine .inr (.inr ⟨fun content hcontent => ?_, rfl⟩)
          rw [on_isFile_eq_true_iff_holds.mpr ⟨content, hcontent⟩] at hfile
          cases hfile

theorem failsFor_isFile_iff {P : Failure → Prop} :
    FailsFor P (Files.isFile path : Run (StateM Machine) Bool) m ↔
      m.Overlong path ∧ P (.os (OsFault.on .nameTooLong path.toString)) := by
  change (∃ failure, (on (Files.isFile path) m).1 = .error failure ∧ P failure) ↔ _
  simp only [on_isFile_eq_error_iff, and_assoc, exists_and_left, exists_eq_left]

end Files

end PageManifest
