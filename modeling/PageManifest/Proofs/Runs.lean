import PageManifest.Files
import PageManifest.Proofs.Walks
import PageManifest.Store.Machine

/-! # Operations on machines

An operation, or the action of a command, is run on a machine held as a value.  Either
composes by its results, and each operation on files has one statement of what it yields
and what it changes.
-/

namespace PageManifest

/-- One of the names that may be drawn for a temporary file. -/
def FreshName.sample : FreshName :=
  ⟨"drawn_10", by decide, by decide⟩

/-- A machine on which something more has been noted. -/
def Machine.noting (m : Machine) (records : List Log.Record) : Machine :=
  { m with noted := m.noted ++ records }

namespace Run

variable {ε α β : Type} {m m' m'' : Machine}

/-- What an operation yields on a machine, and the machine that it leaves. -/
def on (x : ExceptT ε (StateM Machine) α) (machine : Machine) : Except ε α × Machine :=
  x.run machine

theorem on_eq_of_fst {x : ExceptT ε (StateM Machine) α} {r : Except ε α} (h : (on x m).1 = r) :
    on x m = (r, (on x m).2) :=
  Prod.ext h rfl

theorem on_pure (a : α) (m : Machine) :
    on (pure a : ExceptT ε (StateM Machine) α) m = (.ok a, m) := rfl

theorem on_lift (x : StateM Machine α) (m : Machine) :
    on (ExceptT.lift x : ExceptT ε (StateM Machine) α) m = (.ok (x m).1, (x m).2) := rfl

theorem on_value (r : Except Failure α) (m : Machine) : on (Files.value r) m = (r, m) := rfl

theorem on_bind (x : ExceptT ε (StateM Machine) α) (f : α → ExceptT ε (StateM Machine) β)
    (m : Machine) : on (x >>= f) m = match on x m with
      | (.ok a, m') => on (f a) m'
      | (.error e, m') => (.error e, m') := by
  change (match on x m with | (r, m') => (ExceptT.bindCont f r : StateM Machine _) m') = _
  rcases on x m with ⟨_ | _, m'⟩ <;> rfl

theorem on_map (f : α → β) (x : ExceptT ε (StateM Machine) α) (m : Machine) :
    on (f <$> x) m = ((on x m).1.map f, (on x m).2) := by
  rw [map_eq_pure_bind, on_bind]
  rcases on x m with ⟨_ | _, m'⟩ <;> rfl

theorem on_tryCatch (x : ExceptT ε (StateM Machine) α)
    (handler : ε → ExceptT ε (StateM Machine) α) (m : Machine) :
    on (tryCatch x handler) m = match on x m with
      | (.ok a, m') => (.ok a, m')
      | (.error e, m') => on (handler e) m' := by
  simp only [tryCatch, tryCatchThe, MonadExceptOf.tryCatch, ExceptT.tryCatch, on, ExceptT.run,
    ExceptT.mk, bind, StateT.bind]
  rcases x m with ⟨_ | _, m'⟩ <;> rfl

section Bind

variable {x : ExceptT ε (StateM Machine) α} {f : α → ExceptT ε (StateM Machine) β} {a : α} {b : β}
  {e : ε}

theorem on_bind_of_ok (h : on x m = (.ok a, m')) : on (x >>= f) m = on (f a) m' := by
  rw [on_bind, h]

theorem on_bind_of_error (h : on x m = (.error e, m')) : on (x >>= f) m = (.error e, m') := by
  rw [on_bind, h]

/-- An operation that succeeds has succeeded at every step. -/
theorem exists_of_on_bind (h : on (x >>= f) m = (.ok b, m'')) :
    ∃ a m', on x m = (.ok a, m') ∧ on (f a) m' = (.ok b, m'') := by
  rw [on_bind] at h
  rcases hx : on x m with ⟨e | a, m'⟩
  · rw [hx] at h
    cases h
  · rw [hx] at h
    exact ⟨a, m', rfl, h⟩

theorem exists_of_fst_on_bind (h : (on (x >>= f) m).1 = .ok b) :
    ∃ a m', on x m = (.ok a, m') ∧ (on (f a) m').1 = .ok b := by
  obtain ⟨a, m', hx, hf⟩ := exists_of_on_bind (on_eq_of_fst h)
  exact ⟨a, m', hx, congrArg Prod.fst hf⟩

/-- An operation that fails has failed in its first step, or behind it. -/
theorem exists_of_on_bind_error (h : on (x >>= f) m = (.error e, m'')) :
    on x m = (.error e, m'') ∨ ∃ a m', on x m = (.ok a, m') ∧ on (f a) m' = (.error e, m'') := by
  rw [on_bind] at h
  rcases hx : on x m with ⟨e' | a, m'⟩
  · rw [hx] at h
    cases h
    exact .inl rfl
  · rw [hx] at h
    exact .inr ⟨a, m', rfl, h⟩

end Bind

theorem on_noteAll (records : List Log.Record) (m : Machine) :
    on (Files.noteAll records) m = (.ok (), m.noting records) := by
  induction records generalizing m with
  | nil =>
      rw [Machine.noting, List.append_nil]
      rfl
  | cons record records ih =>
      have hsplit : (Files.noteAll (record :: records) : Run (StateM Machine) Unit) =
          ExceptT.lift (Host.note record) >>= fun _ => Files.noteAll records := rfl
      have hnoted : (m.noting [record]).noting records = m.noting (record :: records) := by
        simp [Machine.noting]
      rw [hsplit, on_bind_of_ok (on_lift _ m), ← hnoted]
      exact ih (m.noting [record])

/-- A request is answered without a change, or with the store that it asks for. -/
theorem on_asking {γ α : Type} (meaning : Except PathFault γ → Except Failure α) (paths : List Path)
    (name : OsFault.Cause → OsFault) (ask : Machine → Except OsFault.Cause (γ × Store))
    (m : Machine) :
    on (Files.answerAs meaning (Machine.asking paths name ask)) m =
      if paths.any Path.hasNul then (meaning (.error .nul), m)
      else match ask m with
        | .error cause => (meaning (.error (.os (name cause))), m)
        | .ok (a, store) => (meaning (.ok a), { m with store := store }) := by
  change (match Machine.asking paths name ask m with | (r, m') => (meaning r, m')) = _
  unfold Machine.asking
  cases paths.any Path.hasNul with
  | true => rfl
  | false => cases ask m <;> rfl

/-! ## Reading and deleting files -/

theorem on_read (path : Path) (m : Machine) : on (Files.read path) m =
    if path.hasNul then (.error .nulInPath, m)
    else match m.store.readFile m.here path with
      | .error cause => (.error (.os (OsFault.on cause path.toString)), m)
      | .ok content => (.ok content, m) := by
  refine (on_asking _ _ _ _ m).trans ?_
  rw [List.any_cons, List.any_nil, Bool.or_false]
  cases m.store.readFile m.here path <;> rfl

theorem on_read_eq_ok_iff {path : Path} {content : Bytes} :
    on (Files.read path) m = (.ok content, m') ↔
      path.hasNul = false ∧ m.store.readFile m.here path = .ok content ∧ m' = m := by
  rw [on_read]
  cases path.hasNul with
  | true => simp
  | false =>
      cases hread : m.store.readFile m.here path with
      | error cause => simp
      | ok content' => simp [eq_comm]

theorem on_read_unchanged (path : Path) (m : Machine) : (on (Files.read path) m).2 = m := by
  rw [on_read]
  split
  · rfl
  · split <;> rfl

/-- What a path leads to is told without a change; the way there may be refused. -/
theorem on_status? (path : Path) (m : Machine) : on (Files.status? path) m =
    if path.hasNul then (.ok none, m)
    else match m.store.status m.here path with
      | .error cause =>
          (if (OsFault.on cause path.toString).isAbsence then .ok none
            else .error (.os (OsFault.on cause path.toString)), m)
      | .ok status => (.ok (some status), m) := by
  refine (on_asking _ _ _ _ m).trans ?_
  rw [List.any_cons, List.any_nil, Bool.or_false]
  cases m.store.status m.here path with
  | ok status => rfl
  | error cause => cases cause <;> rfl

/-- Deleting a file that is missing is no failure. -/
theorem on_deletion {α : Type} (deleted missing : α) (path : Path) (m : Machine) :
    on (Files.answerAs (Files.deletion deleted missing) (Host.removeFile path)) m =
      if path.hasNul then (.error .nulInPath, m)
      else match m.store.removeFile m.here path with
        | .error cause =>
            (if (OsFault.on cause path.toString).category = .fileMissing then .ok missing
              else .error (.os (OsFault.on cause path.toString)), m)
        | .ok store => (.ok deleted, { m with store := store }) := by
  refine (on_asking _ _ _ _ m).trans ?_
  rw [List.any_cons, List.any_nil, Bool.or_false]
  cases m.store.removeFile m.here path with
  | ok store => rfl
  | error cause => cases cause <;> rfl

/-- Deleting a file tells whether there was one. -/
theorem on_remove (path : Path) (m : Machine) : on (Files.remove path) m =
    if path.hasNul then (.error .nulInPath, m)
    else match m.store.removeFile m.here path with
      | .error cause =>
          (if (OsFault.on cause path.toString).category = .fileMissing then .ok false
            else .error (.os (OsFault.on cause path.toString)), m)
      | .ok store => (.ok true, { m with store := store }) :=
  on_deletion true false path m

/-! ## The parts of a replacement -/

/-- A place that is taken is no failure, and there nothing is created. -/
theorem on_create (path : Path) (m : Machine) :
    on (Files.answerAs Files.creation (Host.createFile path)) m =
      if path.hasNul then (.error .nulInPath, m)
      else match m.store.createFile m.here path with
        | .error cause =>
            (if cause = .alreadyThere then .ok false
              else .error (.os (OsFault.on cause path.toString)), m)
        | .ok store => (.ok true, { m with store := store }) := by
  refine (on_asking _ _ _ _ m).trans ?_
  rw [List.any_cons, List.any_nil, Bool.or_false]
  cases m.store.createFile m.here path with
  | ok store => rfl
  | error cause => cases cause <;> rfl

theorem on_writeFile (path : Path) (content : Bytes) (m : Machine) :
    on (Files.answer (Host.writeFile path content)) m =
      if path.hasNul then (.error .nulInPath, m)
      else match m.store.writeFile m.here path content with
        | .error cause => (.error (.os (OsFault.on cause path.toString)), m)
        | .ok store => (.ok (), { m with store := store }) := by
  refine (on_asking _ _ _ _ m).trans ?_
  rw [List.any_cons, List.any_nil, Bool.or_false]
  cases m.store.writeFile m.here path content <;> rfl

theorem on_rename (source target : Path) (m : Machine) :
    on (Files.answer (Host.rename source target)) m =
      if source.hasNul || target.hasNul then (.error .nulInPath, m)
      else match m.store.rename m.here source target with
        | .error cause =>
            (.error (.os (OsFault.onMove cause source.toString target.toString)), m)
        | .ok store => (.ok (), { m with store := store }) := by
  refine (on_asking _ _ _ _ m).trans ?_
  rw [List.any_cons, List.any_cons, List.any_nil, Bool.or_false]
  cases m.store.rename m.here source target <;> rfl

theorem on_discard (path : Path) (m : Machine) : on (Files.discard path) m =
    if path.hasNul then (.error .nulInPath, m)
    else match m.store.removeFile m.here path with
      | .error cause =>
          (if (OsFault.on cause path.toString).category = .fileMissing then .ok ()
            else .error (.os (OsFault.on cause path.toString)), m)
      | .ok store => (.ok (), { m with store := store }) :=
  on_deletion () () path m

end Run

end PageManifest
