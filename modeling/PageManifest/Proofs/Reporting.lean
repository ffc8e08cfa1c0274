import PageManifest.Command.Status
import PageManifest.Proofs.Failing
import PageManifest.Proofs.TemporaryNames

/-! # Failures that nobody reports

Commands report failures by their category, and for some categories there is no report.
Faults of files and faults of texts are reported; what is left are encodings that are no
codings of texts, and paths that hold a NUL.
-/

namespace PageManifest

open Run

variable {m m' : Machine} {path target : Path} {content : Bytes} {t : Text} {charset : Charset}

/-- A failure of a category of which commands report none. -/
def Failure.Unreported (failure : Failure) : Prop :=
  Command.Status.ofCategory? failure.category = none

instance : DecidablePred Failure.Unreported :=
  fun failure => inferInstanceAs (Decidable (Command.Status.ofCategory? failure.category = none))

theorem not_unreported_os (fault : OsFault) : ¬ (Failure.os fault).Unreported := by
  change ¬ Command.Status.ofCategory? fault.category = none
  unfold OsFault.category
  split
  · decide
  · split <;> decide

theorem Refuses.mapError_iff {ε ε' α : Type} {P : ε' → Prop} (f : ε → ε') (r : Except ε α) :
    Refuses P (r.mapError f) ↔ Refuses (fun e => P (f e)) r := by
  cases r with
  | error e =>
      change Refuses P (.error (f e)) ↔ _
      simp
  | ok a =>
      change Refuses P (.ok a) ↔ _
      simp

/-! ## Codings -/

namespace Charset

/-- A charset that stands for a coding of texts, written out here or supplied. -/
def IsCoding (charset : Charset) : Prop :=
  (∃ k, charset = .codec k) ∨ ∃ coding, charset = .supplied coding

theorem isCoding_codec (k : Codec) : (codec k).IsCoding :=
  .inl ⟨k, rfl⟩

theorem isCoding_supplied (coding : Coding) : (supplied coding).IsCoding :=
  .inr ⟨coding, rfl⟩

/-- Octets cannot be decoded by what is no coding, unless there are none. -/
theorem unreported_decode_iff (hnul : charset ≠ .withNul) :
    Refuses Failure.Unreported ((charset.decode content).mapError .charset) ↔
      ¬ charset.IsCoding ∧ content ≠ [] := by
  rw [Refuses.mapError_iff]
  cases charset with
  | codec k =>
      rw [decode, Refuses.mapError_iff]
      cases k.decode content <;>
        simp [isCoding_codec, Failure.Unreported, Failure.category, Fault.category,
          Command.Status.ofCategory?]
  | supplied coding =>
      cases content with
      | nil => simp [decode, isCoding_supplied]
      | cons octet content =>
          simp only [decode, List.isEmpty_cons, Bool.false_eq_true, if_false]
          rw [Refuses.mapError_iff]
          cases coding.decode (octet :: content) <;>
            simp [isCoding_supplied, Failure.Unreported, Failure.category, Fault.category,
              Command.Status.ofCategory?]
  | transform label =>
      cases content <;>
        simp [decode, IsCoding, Failure.Unreported, Failure.category, Fault.category,
          Command.Status.ofCategory?]
  | unknown label =>
      cases content <;>
        simp [decode, IsCoding, Failure.Unreported, Failure.category, Fault.category,
          Command.Status.ofCategory?]
  | withNul => exact absurd rfl hnul

theorem unreported_encode_iff :
    Refuses Failure.Unreported ((charset.encode t).mapError .charset) ↔ ¬ charset.IsCoding := by
  rw [Refuses.mapError_iff]
  cases charset with
  | codec k =>
      rw [encode, Refuses.mapError_iff]
      cases k.encode t <;>
        simp [isCoding_codec, Failure.Unreported, Failure.category, Fault.category,
          Command.Status.ofCategory?]
  | supplied coding =>
      rw [encode, Refuses.mapError_iff]
      cases coding.encode t <;>
        simp [isCoding_supplied, Failure.Unreported, Failure.category, Fault.category,
          Command.Status.ofCategory?]
  | transform label =>
      simp [encode, IsCoding, Failure.Unreported, Failure.category, Fault.category,
        Command.Status.ofCategory?]
  | unknown label =>
      simp [encode, IsCoding, Failure.Unreported, Failure.category, Fault.category,
        Command.Status.ofCategory?]
  | withNul =>
      simp [encode, IsCoding, Failure.Unreported, Failure.category, Fault.category,
        Command.Status.ofCategory?]

end Charset

/-! ## One step after the other -/

namespace FailsFor

variable {ε α β : Type} {P : ε → Prop} {x : ExceptT ε (StateM Machine) α}
  {f : α → ExceptT ε (StateM Machine) β}

theorem bind_iff_run : FailsFor P (x >>= f) m ↔
    FailsFor P x m ∨ ∃ a, (x.run m).1 = .ok a ∧ FailsFor P (f a) (x.run m).2 :=
  bind_iff_of_run (Prod.eta (x.run m)).symm

/-- Where nothing that follows can fail, only the first step does. -/
theorem bind_iff_left (hf : ∀ a m', ¬ FailsFor P (f a) m') :
    FailsFor P (x >>= f) m ↔ FailsFor P x m := by
  rw [bind_iff_run]
  simp only [hf, and_false, exists_false, or_false]

end FailsFor

section Steps

variable {α β : Type} {P : Failure → Prop}

theorem failsFor_value_bind_iff (r : Except Failure α) (f : α → Run (StateM Machine) β) :
    FailsFor P (Files.value r >>= f) m ↔ Refuses P r ∨ ∃ a, r = .ok a ∧ FailsFor P (f a) m :=
  FailsFor.bind_iff_of_run (on_value r m)

theorem failsFor_noteAll_bind_iff (records : List Log.Record) (x : Run (StateM Machine) β) :
    FailsFor P (Files.noteAll records >>= fun _ => x) m ↔ FailsFor P x (m.noting records) := by
  rw [FailsFor.bind_iff_of_run (on_noteAll records m), Refuses.ok_iff, false_or]
  exact ⟨fun ⟨_, _, h⟩ => h, fun h => ⟨(), rfl, h⟩⟩

end Steps

/-! ## Files -/

section Files

theorem unreported_nulInPath : Failure.nulInPath.Unreported := by
  decide

/-- Only a path with a NUL cannot be read from for reasons that are not reported. -/
theorem failsFor_read_iff :
    FailsFor Failure.Unreported (Files.read path : Run (StateM Machine) Bytes) m ↔
      path.hasNul = true := by
  change Refuses _ (on (Files.read path) m).1 ↔ _
  rw [on_read]
  cases path.hasNul with
  | true => simp [unreported_nulInPath]
  | false => cases m.store.readFile m.here path <;> simp [not_unreported_os]

theorem not_failsFor_isFile :
    ¬ FailsFor Failure.Unreported (Files.isFile path : Run (StateM Machine) Bool) m := by
  rw [failsFor_isFile_iff]
  exact fun h => not_unreported_os _ h.2

theorem not_failsFor_status? : ¬ FailsFor Failure.Unreported
    (Files.status? path : Run (StateM Machine) (Option Status)) m := by
  change ¬ Refuses _ (on (Files.status? path) m).1
  rw [on_status?]
  cases path.hasNul with
  | true => simp
  | false =>
      cases m.store.status m.here path with
      | error cause =>
          simp only [Bool.false_eq_true, if_false]
          split <;> simp [not_unreported_os]
      | ok status => simp

theorem not_failsFor_size? : ¬ FailsFor Failure.Unreported
    (Files.size? path : Run (StateM Machine) (Option Nat)) m := by
  unfold Files.size?
  rw [FailsFor.bind_iff_left]
  · exact not_failsFor_status?
  · intro found m'
    split <;> simp

theorem not_failsFor_discard (hpath : path.hasNul = false) :
    ¬ FailsFor Failure.Unreported (Files.discard path : Run (StateM Machine) Unit) m := by
  change ¬ Refuses _ (on (Files.discard path) m).1
  rw [on_discard, hpath]
  cases m.store.removeFile m.here path with
  | error cause =>
      simp only [Bool.false_eq_true, if_false]
      split <;> simp [not_unreported_os]
  | ok store => simp

theorem not_failsFor_rename {source : Path} (hsource : source.hasNul = false)
    (htarget : target.hasNul = false) : ¬ FailsFor Failure.Unreported
      (Files.answer (Host.rename source target) : Run (StateM Machine) Unit) m := by
  change ¬ Refuses _ (on (Files.answer (Host.rename source target)) m).1
  rw [on_rename, hsource, htarget]
  cases m.store.rename m.here source target <;> simp [not_unreported_os]

theorem not_failsFor_writeFile (hpath : path.hasNul = false) : ¬ FailsFor Failure.Unreported
    (Files.answer (Host.writeFile path content) : Run (StateM Machine) Unit) m := by
  change ¬ Refuses _ (on (Files.answer (Host.writeFile path content)) m).1
  rw [on_writeFile, hpath]
  cases m.store.writeFile m.here path content <;> simp [not_unreported_os]

theorem not_failsFor_settle {source : Path} (hsource : source.hasNul = false)
    (htarget : target.hasNul = false) :
    ¬ FailsFor Failure.Unreported (settle source target content) m := by
  have hmove : ∀ m, ¬ FailsFor Failure.Unreported (move source target) m := by
    intro m
    rw [move, FailsFor.bind_iff_left fun _ _ => not_failsFor_rename hsource htarget]
    exact not_failsFor_status?
  have hdeliver : ∀ m, ¬ FailsFor Failure.Unreported (deliver source target content) m := by
    intro m
    rw [deliver, FailsFor.bind_iff_left fun _ m' => hmove m']
    exact not_failsFor_writeFile hsource
  change ¬ Refuses _ (on (settle source target content) m).1
  rw [settle, on_tryCatch]
  rcases hrun : on (deliver source target content) m with ⟨failure | a, m'⟩
  · have hfailure : ¬ failure.Unreported := by
      intro h
      refine hdeliver m ⟨failure, ?_, h⟩
      exact congrArg Prod.fst hrun
    change ¬ FailsFor Failure.Unreported (Files.discard source >>= fun _ => throw failure) m'
    rw [FailsFor.bind_iff_left fun _ _ h => hfailure ((FailsFor.throw_iff failure).mp h)]
    exact not_failsFor_discard hsource
  · simp

theorem createFirst_cons (path : Path) (rest : List Path) :
    (Files.createFirst (path :: rest) : Run (StateM Machine) Path) =
      Files.answerAs Files.creation (Host.createFile path) >>= fun created =>
        if created = true then pure path else Files.createFirst rest := rfl

/-- Creating a file where none can be named is not reported. -/
theorem on_create_of_hasNul (hpath : path.hasNul = true) :
    on (Files.answerAs Files.creation (Host.createFile path)) m = (.error .nulInPath, m) := by
  rw [on_create, if_pos hpath]

theorem not_failsFor_create (hpath : path.hasNul = false) : ¬ FailsFor Failure.Unreported
    (Files.answerAs Files.creation (Host.createFile path) : Run (StateM Machine) Bool) m := by
  change ¬ Refuses _ (on (Files.answerAs Files.creation (Host.createFile path)) m).1
  rw [on_create, hpath]
  cases m.store.createFile m.here path with
  | error cause =>
      simp only [Bool.false_eq_true, if_false]
      split <;> simp [not_unreported_os]
  | ok store => simp

theorem not_failsFor_createFirst {paths : List Path} (h : ∀ path ∈ paths, path.hasNul = false)
    (m : Machine) : ¬ FailsFor Failure.Unreported
      (Files.createFirst paths : Run (StateM Machine) Path) m := by
  induction paths generalizing m with
  | nil => exact fun hfails => not_unreported_os _ ((FailsFor.throw_iff _).mp hfails)
  | cons path rest ih =>
      rw [createFirst_cons, FailsFor.bind_iff_left]
      · exact not_failsFor_create (h path (List.mem_cons_self ..))
      · intro created m'
        cases created with
        | true => simp
        | false => exact ih (fun path' hpath' => h path' (List.mem_cons_of_mem _ hpath')) m'

theorem mem_of_createFirst {paths : List Path}
    (h : (on (Files.createFirst paths) m).1 = .ok path) : path ∈ paths := by
  induction paths generalizing m with
  | nil => cases h
  | cons first rest ih =>
      rw [createFirst_cons] at h
      obtain ⟨created, m', -, hrest⟩ := exists_of_fst_on_bind h
      cases created with
      | true =>
          cases hrest
          exact List.mem_cons_self ..
      | false => exact List.mem_cons_of_mem _ (ih hrest)

/-- Only with a NUL in the name of the temporary file is a failed replacement not reported. -/
theorem failsFor_replace_iff {tempPrefix : String} (htarget : target.hasNul = false) :
    FailsFor Failure.Unreported (Files.replace tempPrefix target content) m ↔
      ∃ first ∈ (m.temporaries tempPrefix target).head?, first.hasNul = true := by
  change Refuses _ (on (Files.replace tempPrefix target content) m).1 ↔ _
  rw [on_replace]
  change FailsFor _ _ m ↔ _
  by_cases hall : ∀ path ∈ m.temporaries tempPrefix target, path.hasNul = false
  · have hfirst : ¬ ∃ first ∈ (m.temporaries tempPrefix target).head?, first.hasNul = true := by
      rintro ⟨first, hmem, hnul⟩
      rw [hall first (List.mem_of_head? hmem)] at hnul
      cases hnul
    refine iff_of_false ?_ hfirst
    rw [FailsFor.bind_iff_run]
    rintro (hcreate | ⟨path, hcreate, hrest⟩)
    · exact not_failsFor_createFirst hall m hcreate
    · rw [FailsFor.bind_iff_left fun _ _ h => (FailsFor.pure_iff _).mp h] at hrest
      exact not_failsFor_settle (Path.hasNul_tidy (hall path (mem_of_createFirst hcreate)))
        htarget hrest
  · cases htemporaries : m.temporaries tempPrefix target with
    | nil =>
        rw [htemporaries] at hall
        exact absurd (fun _ hmem => absurd hmem List.not_mem_nil) hall
    | cons first rest =>
        have hmem : ∀ path ∈ m.temporaries tempPrefix target, path.hasNul = first.hasNul := by
          intro path hpath
          have hfirst : first ∈ m.temporaries tempPrefix target := by
            rw [htemporaries]
            exact List.mem_cons_self ..
          rw [Machine.hasNul_of_mem hpath, Machine.hasNul_of_mem hfirst]
        cases hnul : first.hasNul with
        | false => exact absurd (fun path hpath => (hmem path hpath).trans hnul) hall
        | true =>
            refine iff_of_true ?_ ⟨first, rfl, hnul⟩
            have hcreate : on (Files.createFirst (first :: rest)) m = (.error .nulInPath, m) := by
              rw [createFirst_cons, on_bind_of_error (on_create_of_hasNul hnul)]
            rw [FailsFor.bind_iff_of_run hcreate]
            simp [unreported_nulInPath]

end Files

end PageManifest
