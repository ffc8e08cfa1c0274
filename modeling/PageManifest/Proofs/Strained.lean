import PageManifest.Proofs.Replacing
import PageManifest.Store.Strain

/-! # Replacing a file under strain

Whichever step of a replacement is refused, and for whatever reason, the machine is left
as it was, except that a temporary file stays where its deletion is refused too.  Where
nothing is refused the content is in its place, and nothing else has changed.  Without a
strain that settles how a replacement goes.
-/

namespace PageManifest

open Run

namespace Strain

variable {ε α β : Type} {strain : Strain} {m m' : Machine}

/-- A path that is passed over: something is there, or creating is refused as if it were. -/
def Passes (strain : Strain) (m : Machine) (path : Path) : Prop :=
  (strain.create m path = none ∧ m.Taken path) ∨
    ∃ fault ∈ strain.create m path, fault.code = OsFault.Cause.alreadyThere.code

/-- A free path at which creating a file is not refused. -/
def Admits (strain : Strain) (m : Machine) (path : Path) (spot : Location) : Prop :=
  strain.create m path = none ∧ m.Free path spot

/--
A strain that stops no step behind the temporary file; a status that is refused as if
nothing were there stops none.
-/
structure Spares (strain : Strain) (m : Machine) (target : Path) (content : Bytes) (path : Path)
    (spot : Location) : Prop where
  write : strain.write (m.putting spot []) path.tidy = none
  status : ∀ fault ∈ strain.status (m.putting spot content) target, fault.isAbsence = true
  rename : strain.rename (m.putting spot content) path.tidy target = none

/-- What is left of a failed replacement: a temporary file whose deletion is refused. -/
def Leftover (strain : Strain) (m : Machine) (tempPrefix : String) (target : Path)
    (content : Bytes) (m' : Machine) : Prop :=
  ∃ path ∈ m.temporaries tempPrefix target, ∃ spot part, m.Free path spot ∧ part <+: content ∧
    strain.remove (m.putting spot part) path.tidy ≠ none ∧ m' = m.putting spot part

/-! ## Operations under strain -/

theorem under_bind (strain : Strain) (x : ExceptT ε (ReaderT Strain (StateM Machine)) α)
    (f : α → ExceptT ε (ReaderT Strain (StateM Machine)) β) :
    strain.under (x >>= f) = strain.under x >>= fun a => strain.under (f a) := by
  funext m
  change (match on (strain.under x) m with
    | (r, m') => (ExceptT.bindCont f r : ReaderT Strain (StateM Machine) _) strain m') =
      on (strain.under x >>= fun a => strain.under (f a)) m
  rw [on_bind]
  rcases on (strain.under x) m with ⟨_ | _, m'⟩ <;> rfl

theorem under_tryCatch (strain : Strain) (x : ExceptT ε (ReaderT Strain (StateM Machine)) α)
    (handler : ε → ExceptT ε (ReaderT Strain (StateM Machine)) α) :
    strain.under (tryCatch x handler) =
      tryCatch (strain.under x) fun e => strain.under (handler e) := by
  funext m
  change _ = on (tryCatch (strain.under x) fun e => strain.under (handler e)) m
  rw [on_tryCatch]
  simp only [tryCatch, tryCatchThe, MonadExceptOf.tryCatch, ExceptT.tryCatch, under, on,
    ExceptT.run, ExceptT.mk, bind, ReaderT.bind, StateT.bind]
  rcases x strain m with ⟨_ | _, m'⟩ <;> rfl

section Refusals

variable {γ : Type} (strain : Strain) (meaning : Except PathFault γ → Except Failure α)
  (refusal : Machine → Option OsFault) (ask : StateM Machine (Except PathFault γ))

theorem on_spared (h : refusal m = none) :
    on (strain.under (Files.answerAs meaning fun _ => unlessRefused refusal ask)) m =
      on (Files.answerAs meaning ask) m := by
  change (meaning (unlessRefused refusal ask m).1, (unlessRefused refusal ask m).2) = _
  rw [unlessRefused, h]
  rfl

theorem on_refused {fault : OsFault} (h : refusal m = some fault) :
    on (strain.under (Files.answerAs meaning fun _ => unlessRefused refusal ask)) m =
      (meaning (.error (.os fault)), m) := by
  change (meaning (unlessRefused refusal ask m).1, (unlessRefused refusal ask m).2) = _
  rw [unlessRefused, h]

end Refusals

variable {path source target : Path} {spot place : Location} {content : Bytes} {fault : OsFault}

theorem on_status?_spared (h : strain.status m target = none) :
    on (strain.under (Files.status? target)) m = on (Files.status? target) m :=
  on_spared strain _ (strain.status · target) _ h

theorem on_status?_refused (h : strain.status m target = some fault) :
    on (strain.under (Files.status? target)) m =
      (if fault.isAbsence then .ok none else .error (.os fault), m) :=
  on_refused strain _ (strain.status · target) _ h

theorem on_rename_spared (h : strain.rename m source target = none) :
    on (strain.under (Files.answer (Host.rename source target))) m =
      on (Files.answer (Host.rename source target)) m :=
  on_spared strain _ (strain.rename · source target) _ h

theorem on_rename_refused (h : strain.rename m source target = some fault) :
    on (strain.under (Files.answer (Host.rename source target))) m = (.error (.os fault), m) :=
  on_refused strain _ (strain.rename · source target) _ h

theorem on_discard_spared (h : strain.remove m source = none) :
    on (strain.under (Files.discard source)) m = on (Files.discard source) m :=
  on_spared strain _ (strain.remove · source) _ h

theorem on_under_writeFile (strain : Strain) (source : Path) (content : Bytes) (m : Machine) :
    on (strain.under (Files.answer (Host.writeFile source content))) m =
      ((writeSome (strain.write · source) (Host.writeFile source) content m).1.mapError
        Failure.ofPath, (writeSome (strain.write · source) (Host.writeFile source) content m).2) :=
  rfl

theorem on_writeFile_spared (h : strain.write m source = none) (content : Bytes) :
    on (strain.under (Files.answer (Host.writeFile source content))) m =
      on (Files.answer (Host.writeFile source content)) m := by
  rw [on_under_writeFile, writeSome, h]
  rfl

/-- A write that is refused has put a part of the content into the file. -/
theorem on_writeFile_refused {count : Nat} (h : strain.write m source = some (count, fault))
    (content : Bytes) : on (strain.under (Files.answer (Host.writeFile source content))) m =
      (.error (.os fault),
        (on (Files.answer (Host.writeFile source (content.take count))) m).2) := by
  rw [on_under_writeFile, writeSome, h]
  rfl

/-! ## The temporary file -/

section Create

variable {paths rest : List Path}

theorem on_create_admitted (h : strain.Admits m path spot) :
    on (strain.under (Files.answerAs Files.creation (Host.createFile path))) m =
      (.ok true, m.putting spot []) :=
  (on_spared strain _ (strain.create · path) _ h.1).trans (on_create_of_free h.2)

theorem on_create_passed (h : strain.Passes m path) :
    on (strain.under (Files.answerAs Files.creation (Host.createFile path))) m =
      (.ok false, m) := by
  rcases h with ⟨hspared, htaken⟩ | ⟨fault, hfault, hcode⟩
  · exact (on_spared strain _ (strain.create · path) _ hspared).trans (on_create_of_taken htaken)
  · refine (on_refused strain _ (strain.create · path) _ hfault).trans ?_
    rw [Files.creation, if_pos hcode]

theorem on_create_of_neither (hadmits : ∀ spot, ¬ strain.Admits m path spot)
    (hpasses : ¬ strain.Passes m path) : ∃ failure,
      on (strain.under (Files.answerAs Files.creation (Host.createFile path))) m =
        (.error failure, m) := by
  cases hcreate : strain.create m path with
  | none =>
      obtain ⟨failure, hfailure⟩ := PageManifest.on_create_of_neither
        (fun spot hfree => hadmits spot ⟨hcreate, hfree⟩)
        fun htaken => hpasses (.inl ⟨hcreate, htaken⟩)
      exact ⟨failure, (on_spared strain _ (strain.create · path) _ hcreate).trans hfailure⟩
  | some fault =>
      have hcode : fault.code ≠ OsFault.Cause.alreadyThere.code :=
        fun hcode => hpasses (.inr ⟨fault, hcreate, hcode⟩)
      refine ⟨.os fault, (on_refused strain _ (strain.create · path) _ hcreate).trans ?_⟩
      rw [Files.creation, if_neg hcode]

theorem under_createFirst_cons (strain : Strain) (path : Path) (rest : List Path) :
    strain.under (Files.createFirst (path :: rest)) =
      strain.under (Files.answerAs Files.creation (Host.createFile path)) >>= fun created =>
        strain.under (if created = true then pure path else Files.createFirst rest) :=
  strain.under_bind _ _

theorem on_createFirst_of_fit (h : FirstFit (strain.Passes m) (strain.Admits m) paths path spot) :
    on (strain.under (Files.createFirst paths)) m = (.ok path, m.putting spot []) := by
  induction h with
  | here fit =>
      rw [under_createFirst_cons, on_bind_of_ok (on_create_admitted fit)]
      rfl
  | past skip _ ih =>
      rw [under_createFirst_cons, on_bind_of_ok (on_create_passed skip)]
      exact ih

theorem on_createFirst_of_unfit
    (h : ∀ path spot, ¬ FirstFit (strain.Passes m) (strain.Admits m) paths path spot) :
    ∃ failure, on (strain.under (Files.createFirst paths)) m = (.error failure, m) := by
  induction paths with
  | nil => exact ⟨_, rfl⟩
  | cons path rest ih =>
      rw [under_createFirst_cons]
      by_cases hpasses : strain.Passes m path
      · obtain ⟨failure, hrest⟩ := ih fun path' spot hfit => h path' spot (.past hpasses hfit)
        exact ⟨failure, (on_bind_of_ok (on_create_passed hpasses)).trans hrest⟩
      · obtain ⟨failure, hfailure⟩ := on_create_of_neither
          (fun spot hadmits => h path spot (.here hadmits)) hpasses
        exact ⟨failure, on_bind_of_error hfailure⟩

end Create

/-! ## Moving the temporary file -/

theorem on_under_status?_unchanged (strain : Strain) (path : Path) (m : Machine) :
    (on (strain.under (Files.status? path)) m).2 = m := by
  cases h : strain.status m path with
  | none => rw [on_status?_spared h, PageManifest.on_status?_unchanged]
  | some fault => rw [on_status?_refused h]

theorem on_under_move (hfree : m.Free path spot) (hroot : path.root ≠ .none) (content : Bytes)
    (hspares : strain.Spares m target content path spot) (hwritable : m.Writable target place) :
    on (strain.under (move path.tidy target)) (m.putting spot content) =
      (.ok (), m.putting place content) := by
  have hthere := hwritable.congr (hfree.sameDirectories content)
  obtain ⟨found, hfound⟩ : ∃ found,
      on (strain.under (Files.status? target)) (m.putting spot content) =
        (.ok found, m.putting spot content) := by
    cases h : strain.status (m.putting spot content) target with
    | none =>
        rw [on_status?_spared h]
        exact on_status?_of_located hthere.noNul hthere.located
    | some fault => exact ⟨none, by rw [on_status?_refused h, if_pos (hspares.status fault h)]⟩
  rw [move, under_bind, on_bind_of_ok hfound, on_rename_spared hspares.rename,
    hfree.on_rename hroot content hwritable]

theorem on_under_move_refused (hfree : m.Free path spot) (hroot : path.root ≠ .none)
    (content : Bytes)
    (h : (∀ fault ∈ strain.status (m.putting spot content) target, fault.isAbsence = true) →
      strain.rename (m.putting spot content) path.tidy target = none →
        ∀ place, ¬ m.Writable target place) :
    ∃ failure, on (strain.under (move path.tidy target)) (m.putting spot content) =
      (.error failure, m.putting spot content) := by
  have hsame := on_under_status?_unchanged strain target (m.putting spot content)
  rcases hfound : on (strain.under (Files.status? target)) (m.putting spot content) with
    ⟨failure | found, m'⟩
  · rw [hfound] at hsame
    exact ⟨failure, by rw [move, under_bind, on_bind_of_error hfound, ← hsame]⟩
  · rw [hfound] at hsame
    change m' = m.putting spot content at hsame
    rw [hsame] at hfound
    rw [move, under_bind, on_bind_of_ok hfound]
    cases hrename : strain.rename (m.putting spot content) path.tidy target with
    | some fault => exact ⟨.os fault, on_rename_refused hrename⟩
    | none =>
        rw [on_rename_spared hrename]
        refine hfree.on_rename_refused hroot content (h (fun fault hfault => ?_) hrename)
        -- The status was told, so if it was refused it was as if nothing were there.
        rw [on_status?_refused hfault] at hfound
        cases habsence : fault.isAbsence with
        | true => rfl
        | false =>
            rw [habsence] at hfound
            cases hfound

theorem on_under_settle (hfree : m.Free path spot) (hroot : path.root ≠ .none)
    (hspares : strain.Spares m target content path spot) (hwritable : m.Writable target place) :
    on (strain.under (settle path.tidy target content)) (m.putting spot []) =
      (.ok (), m.putting place content) := by
  have hwritten : on (strain.under (Files.answer (Host.writeFile path.tidy content)))
      (m.putting spot []) = (.ok (), m.putting spot content) := by
    rw [on_writeFile_spared hspares.write, hfree.on_write hroot [] content]
  have hdelivered : on (strain.under (deliver path.tidy target content)) (m.putting spot []) =
      (.ok (), m.putting place content) := by
    rw [deliver, under_bind, on_bind_of_ok hwritten,
      on_under_move hfree hroot content hspares hwritable]
  rw [settle, under_tryCatch, on_tryCatch, hdelivered]

/-- Whatever step is refused, only the temporary file has changed: it holds some content. -/
theorem on_under_deliver_refused (hfree : m.Free path spot) (hroot : path.root ≠ .none)
    (h : strain.Spares m target content path spot → ∀ place, ¬ m.Writable target place) :
    ∃ failure part, part <+: content ∧
      on (strain.under (deliver path.tidy target content)) (m.putting spot []) =
        (.error failure, m.putting spot part) := by
  cases hwrite : strain.write (m.putting spot []) path.tidy with
  | none =>
      have hwritten : on (strain.under (Files.answer (Host.writeFile path.tidy content)))
          (m.putting spot []) = (.ok (), m.putting spot content) := by
        rw [on_writeFile_spared hwrite, hfree.on_write hroot [] content]
      obtain ⟨failure, hmoved⟩ := on_under_move_refused hfree hroot content
        fun hstatus hrename => h ⟨hwrite, hstatus, hrename⟩
      refine ⟨failure, content, List.prefix_rfl, ?_⟩
      rw [deliver, under_bind, on_bind_of_ok hwritten, hmoved]
  | some refusal =>
      obtain ⟨count, fault⟩ := refusal
      have hwritten : on (strain.under (Files.answer (Host.writeFile path.tidy content)))
          (m.putting spot []) = (.error (.os fault), m.putting spot (content.take count)) := by
        rw [on_writeFile_refused hwrite, hfree.on_write hroot [] (content.take count)]
      refine ⟨.os fault, content.take count, List.take_prefix count content, ?_⟩
      rw [deliver, under_bind, on_bind_of_error hwritten]

/-- A deletion that is refused leaves the file, whether or not the refusal is passed on. -/
theorem on_under_discard_refused (h : strain.remove m source = some fault) (failure : Failure) :
    ∃ failure', on (strain.under (Files.discard source >>= fun _ =>
      (throw failure : Run (ReaderT Strain (StateM Machine)) Unit))) m = (.error failure', m) := by
  have hdiscard : on (strain.under (Files.discard source)) m =
      (Files.deletion () () (.error (.os fault)), m) :=
    on_refused strain _ (strain.remove · source) _ h
  rw [under_bind]
  by_cases hmissing : fault.category = .fileMissing
  · rw [Files.deletion, if_pos hmissing] at hdiscard
    exact ⟨failure, on_bind_of_ok hdiscard⟩
  · rw [Files.deletion, if_neg hmissing] at hdiscard
    exact ⟨.os fault, on_bind_of_error hdiscard⟩

theorem on_under_settle_refused (hfree : m.Free path spot) (hroot : path.root ≠ .none)
    (h : strain.Spares m target content path spot → ∀ place, ¬ m.Writable target place) :
    ∃ failure m', on (strain.under (settle path.tidy target content)) (m.putting spot []) =
        (.error failure, m') ∧
      (m' = m ∨ ∃ part, part <+: content ∧
        strain.remove (m.putting spot part) path.tidy ≠ none ∧ m' = m.putting spot part) := by
  obtain ⟨failure, part, hpart, hdelivered⟩ := on_under_deliver_refused hfree hroot h
  rw [settle, under_tryCatch, on_tryCatch, hdelivered]
  dsimp only
  cases hremove : strain.remove (m.putting spot part) path.tidy with
  | none =>
      have hdiscard : on (strain.under (Files.discard path.tidy)) (m.putting spot part) =
          (.ok (), m) := by
        rw [on_discard_spared hremove, hfree.on_discard hroot part]
      refine ⟨failure, m, ?_, .inl rfl⟩
      rw [under_bind]
      exact on_bind_of_ok hdiscard
  | some fault =>
      obtain ⟨failure', hfailure'⟩ := on_under_discard_refused hremove failure
      exact ⟨failure', _, hfailure', .inr ⟨part, hpart, by rw [hremove]; nofun, rfl⟩⟩

/-! ## The replacement as a whole -/

theorem on_under_replace (strain : Strain) (tempPrefix : String) (target : Path)
    (content : Bytes) (m : Machine) :
    on (strain.under (Files.replace tempPrefix target content)) m =
      on (strain.under (Files.createFirst (m.temporaries tempPrefix target)) >>= fun path =>
        strain.under (settle path.tidy target content) >>= fun _ => pure content.length) m := by
  have hhere : on (strain.under (ExceptT.lift Host.workingDirectory :
      Run (ReaderT Strain (StateM Machine)) Path)) m = (.ok ⟨.slash, m.here⟩, m) := rfl
  have hfresh : on (strain.under (ExceptT.lift Host.freshNames :
      Run (ReaderT Strain (StateM Machine)) (List FreshName))) m = (.ok m.fresh, m) := rfl
  unfold Files.replace
  rw [under_bind, on_bind_of_ok hhere, under_bind, on_bind_of_ok hfresh]
  simp only [under_bind]
  rfl

/-- A replacement that finds a place for its temporary file and is spared goes through. -/
theorem on_under_replace_of_spared {tempPrefix : String}
    (hfit : FirstFit (strain.Passes m) (strain.Admits m) (m.temporaries tempPrefix target)
      path spot)
    (hspares : strain.Spares m target content path spot) (hwritable : m.Writable target place) :
    on (strain.under (Files.replace tempPrefix target content)) m =
      (.ok content.length, m.putting place content) := by
  obtain ⟨hmem, -, hfree⟩ := hfit.fit
  rw [on_under_replace, on_bind_of_ok (on_createFirst_of_fit hfit),
    on_bind_of_ok (on_under_settle hfree (Machine.root_ne_none_of_mem hmem) hspares hwritable)]
  rfl

theorem on_under_replace_refused {tempPrefix : String}
    (h : ∀ path spot,
      FirstFit (strain.Passes m) (strain.Admits m) (m.temporaries tempPrefix target) path spot →
        strain.Spares m target content path spot → ∀ place, ¬ m.Writable target place) :
    ∃ failure m', on (strain.under (Files.replace tempPrefix target content)) m =
      (.error failure, m') ∧ (m' = m ∨ strain.Leftover m tempPrefix target content m') := by
  rw [on_under_replace]
  by_cases hfit : ∃ path spot,
      FirstFit (strain.Passes m) (strain.Admits m) (m.temporaries tempPrefix target) path spot
  · obtain ⟨path, spot, hfit⟩ := hfit
    obtain ⟨hmem, -, hfree⟩ := hfit.fit
    obtain ⟨failure, m', hsettled, hleft⟩ := on_under_settle_refused hfree
      (Machine.root_ne_none_of_mem hmem) (h path spot hfit)
    refine ⟨failure, m', ?_, hleft.imp_right fun ⟨part, hpart, hremove, hm'⟩ =>
      ⟨path, hmem, spot, part, hfree, hpart, hremove, hm'⟩⟩
    rw [on_bind_of_ok (on_createFirst_of_fit hfit), on_bind_of_error hsettled]
  · obtain ⟨failure, hcreated⟩ := on_createFirst_of_unfit
      fun path spot hpath => hfit ⟨path, spot, hpath⟩
    exact ⟨failure, m, on_bind_of_error hcreated, .inl rfl⟩

/-- A replacement that is carried out has put the content in its place, and nothing else. -/
theorem exists_of_on_under_replace {tempPrefix : String} {n : Nat}
    (h : on (strain.under (Files.replace tempPrefix target content)) m = (.ok n, m')) :
    ∃ path spot place, FirstFit (strain.Passes m) (strain.Admits m)
        (m.temporaries tempPrefix target) path spot ∧
      strain.Spares m target content path spot ∧ m.Writable target place ∧
      n = content.length ∧ m' = m.putting place content := by
  by_cases hgood : ∃ path spot place, FirstFit (strain.Passes m) (strain.Admits m)
      (m.temporaries tempPrefix target) path spot ∧
        strain.Spares m target content path spot ∧ m.Writable target place
  · obtain ⟨path, spot, place, hfit, hspares, hwritable⟩ := hgood
    rw [on_under_replace_of_spared hfit hspares hwritable] at h
    cases h
    exact ⟨path, spot, place, hfit, hspares, hwritable, rfl, rfl⟩
  · obtain ⟨failure, m₁, hrun, -⟩ := on_under_replace_refused
      fun path spot hfit hspares place hwritable =>
        hgood ⟨path, spot, place, hfit, hspares, hwritable⟩
    rw [hrun] at h
    cases h

theorem leftover_of_on_under_replace {tempPrefix : String} {failure : Failure}
    (h : on (strain.under (Files.replace tempPrefix target content)) m = (.error failure, m')) :
    m' = m ∨ strain.Leftover m tempPrefix target content m' := by
  by_cases hgood : ∃ path spot place, FirstFit (strain.Passes m) (strain.Admits m)
      (m.temporaries tempPrefix target) path spot ∧
        strain.Spares m target content path spot ∧ m.Writable target place
  · obtain ⟨path, spot, place, hfit, hspares, hwritable⟩ := hgood
    rw [on_under_replace_of_spared hfit hspares hwritable] at h
    cases h
  · obtain ⟨failure', m₁, hrun, hleft⟩ := on_under_replace_refused
      fun path spot hfit hspares place hwritable =>
        hgood ⟨path, spot, place, hfit, hspares, hwritable⟩
    rw [hrun] at h
    cases h
    exact hleft

/-! ## Without a strain -/

theorem relaxed_under_createFirst (paths : List Path) :
    relaxed.under (Files.createFirst paths) = Files.createFirst paths := by
  induction paths with
  | nil => rfl
  | cons path rest ih =>
      rw [under_createFirst_cons, Files.createFirst]
      congr 1
      funext created
      cases created with
      | true => rfl
      | false => exact ih

theorem relaxed_under_settle (source target : Path) (content : Bytes) :
    relaxed.under (settle source target content) = settle source target content := by
  simp only [settle, deliver, move, under_tryCatch, under_bind]
  rfl

theorem relaxed_fit_iff {paths : List Path} :
    FirstFit (relaxed.Passes m) (relaxed.Admits m) paths path spot ↔
      FirstFit m.Taken m.Free paths path spot := by
  constructor
  · refine fun h => h.imp (fun first _ hfirst => ?_) fun _ hfits => hfits.2
    rcases hfirst with ⟨-, htaken⟩ | ⟨fault, hfault, -⟩
    · exact htaken
    · cases hfault
  · exact fun h => h.imp (fun _ _ htaken => .inl ⟨rfl, htaken⟩) fun _ hfree => ⟨rfl, hfree⟩

theorem relaxed_spares (m : Machine) (target : Path) (content : Bytes) (path : Path)
    (spot : Location) : relaxed.Spares m target content path spot :=
  ⟨rfl, nofun, rfl⟩

theorem relaxed_not_leftover {tempPrefix : String} :
    ¬ relaxed.Leftover m tempPrefix target content m' :=
  fun ⟨_, _, _, _, _, _, hremove, _⟩ => hremove rfl

end Strain

section Relaxed

variable {m : Machine} {tempPrefix : String} {target : Path} {place : Location}

theorem on_replace (tempPrefix : String) (target : Path) (content : Bytes) (m : Machine) :
    on (Files.replace tempPrefix target content) m =
      on (Files.createFirst (m.temporaries tempPrefix target) >>= fun path =>
        settle path.tidy target content >>= fun _ => pure content.length) m := by
  unfold Files.replace
  rw [on_bind_of_ok (on_lift _ m), on_bind_of_ok (on_lift _ _)]
  rfl

theorem relaxed_under_replace (tempPrefix : String) (target : Path) (content : Bytes)
    (m : Machine) : on (Strain.relaxed.under (Files.replace tempPrefix target content)) m =
      on (Files.replace tempPrefix target content) m := by
  rw [Strain.on_under_replace, on_replace, Strain.relaxed_under_createFirst]
  simp only [Strain.relaxed_under_settle]

theorem on_replace_of_replaceable (h : m.Replaceable tempPrefix target place) (content : Bytes) :
    on (Files.replace tempPrefix target content) m =
      (.ok content.length, { m with store := m.store.set place (.file content) }) := by
  obtain ⟨path, spot, hfit⟩ := h.spare
  rw [← relaxed_under_replace]
  exact Strain.on_under_replace_of_spared (Strain.relaxed_fit_iff.mpr hfit)
    (Strain.relaxed_spares m target content path spot) h.writable

/-- A replacement that is refused leaves the machine as it was. -/
theorem on_replace_of_not_replaceable (h : ∀ place, ¬ m.Replaceable tempPrefix target place)
    (content : Bytes) :
    ∃ failure, on (Files.replace tempPrefix target content) m = (.error failure, m) := by
  have hrefused : ∀ path spot, FirstFit (Strain.relaxed.Passes m) (Strain.relaxed.Admits m)
      (m.temporaries tempPrefix target) path spot →
        Strain.relaxed.Spares m target content path spot → ∀ place, ¬ m.Writable target place :=
    fun path spot hfit _ place hwritable =>
      h place ⟨⟨path, spot, Strain.relaxed_fit_iff.mp hfit⟩, hwritable⟩
  obtain ⟨failure, m', hrun, hleft⟩ := Strain.on_under_replace_refused hrefused
  rw [relaxed_under_replace, hleft.resolve_right Strain.relaxed_not_leftover] at hrun
  exact ⟨failure, hrun⟩

/-- A target that was written reads as its content. -/
theorem Machine.Writable.on_read (h : m.Writable target place) (content : Bytes) :
    on (Files.read target) (m.putting place content) = (.ok content, m.putting place content) := by
  have hnode := Store.node?_set m.store h.place_ne_nil (.file content)
  have hsame : m.store.SameDirectories (m.putting place content).store :=
    Store.Updated.sameDirectories hnode h.noDirectory (by simp)
  refine on_read_eq_ok_iff.mpr ⟨h.noNul, Store.readFile_eq_ok_iff.mpr ⟨place, ?_, ?_⟩, rfl⟩
  · exact Store.locate_congr hsame h.located
  · rw [Machine.putting, hnode, if_pos rfl]

end Relaxed

/--
A replacement is all or nothing, whatever the directory tree and whatever step is
refused.  If it is carried out, it tells the length of the content, the target reads as
the content, and no other place holds anything else than before; it is carried out just
when a name is found for the temporary file, no step behind it is refused and the target
can be written.  If it fails, the machine is as it was; only where the deletion of the
temporary file is refused as well does that remain, with some of the content in it.
-/
theorem replacement_all_or_nothing (strain : Strain) (tempPrefix : String) (target : Path)
    (content : Bytes) (m : Machine) :
    (∀ n m', on (strain.under (Files.replace tempPrefix target content)) m = (.ok n, m') →
      n = content.length ∧ on (Files.read target) m' = (.ok content, m') ∧
      ∃ place, m.store.locate m.here target = .ok place ∧ m' = { m with store := m'.store } ∧
        ∀ other, m'.store.node? other =
          if other = place then some (.file content) else m.store.node? other) ∧
    (∀ failure m', on (strain.under (Files.replace tempPrefix target content)) m =
      (.error failure, m') → m' = m ∨
        ∃ path ∈ m.temporaries tempPrefix target, ∃ spot part, m.Free path spot ∧
          part <+: content ∧ strain.remove (m.putting spot part) path.tidy ≠ none ∧
            m' = m.putting spot part) ∧
    ((∃ n m', on (strain.under (Files.replace tempPrefix target content)) m = (.ok n, m')) ↔
      ∃ path spot place, FirstFit (strain.Passes m) (strain.Admits m)
          (m.temporaries tempPrefix target) path spot ∧
        strain.Spares m target content path spot ∧ m.Writable target place) ∧
    on (Strain.relaxed.under (Files.replace tempPrefix target content)) m =
      on (Files.replace tempPrefix target content) m := by
  refine ⟨?_, fun failure m' => Strain.leftover_of_on_under_replace, ⟨?_, ?_⟩,
    relaxed_under_replace tempPrefix target content m⟩
  · intro n m' hrun
    obtain ⟨path, spot, place, -, -, hwritable, rfl, rfl⟩ :=
      Strain.exists_of_on_under_replace hrun
    exact ⟨rfl, hwritable.on_read content, place, hwritable.located, rfl,
      Store.node?_set m.store hwritable.place_ne_nil (.file content)⟩
  · rintro ⟨n, m', hrun⟩
    obtain ⟨path, spot, place, hfit, hspares, hwritable, -, -⟩ :=
      Strain.exists_of_on_under_replace hrun
    exact ⟨path, spot, place, hfit, hspares, hwritable⟩
  · rintro ⟨path, spot, place, hfit, hspares, hwritable⟩
    exact ⟨_, _, Strain.on_under_replace_of_spared hfit hspares hwritable⟩

end PageManifest
