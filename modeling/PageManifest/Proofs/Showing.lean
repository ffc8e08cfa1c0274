import PageManifest.Proofs.Acts
import PageManifest.Proofs.Loading

/-! # How output is shown

A machine shows its output and its log in a way that is settled once, at the start of a
run.  Nothing that is done later goes by it: on two machines that differ in nothing else
an operation yields the same and leaves machines that differ in nothing else.
-/

namespace PageManifest

/-- A machine whose output and log are shown in some other way. -/
def Machine.showing (m : Machine) (console : Terminal.Console) (logging : Option Log.Setup) :
    Machine :=
  { m with console := console, logging := logging }

/-- A step that does not go by how output is shown, and leaves that as it is. -/
def Blind {α : Type} (x : StateM Machine α) : Prop :=
  ∀ (m : Machine) (console : Terminal.Console) (logging : Option Log.Setup),
    x (m.showing console logging) = ((x m).1, (x m).2.showing console logging)

namespace Blind

variable {ε α β : Type}

theorem pure (a : α) : Blind (Pure.pure a : StateM Machine α) :=
  fun _ _ _ => rfl

theorem bind {x : StateM Machine α} {f : α → StateM Machine β} (hx : Blind x)
    (hf : ∀ a, Blind (f a)) : Blind (x >>= f) := by
  intro m console logging
  have hrun : ∀ m, (x >>= f) m = f (x m).1 (x m).2 := fun _ => rfl
  rw [hrun, hrun, hx m console logging]
  exact hf _ _ console logging

theorem map {x : StateM Machine α} (f : α → β) (hx : Blind x) : Blind (f <$> x) :=
  hx.bind fun _ => .pure _

/-! ## Steps that may fail -/

theorem run_pure (a : α) : Blind (Pure.pure a : ExceptT ε (StateM Machine) α).run :=
  fun _ _ _ => rfl

theorem run_throw (e : ε) : Blind (throw e : ExceptT ε (StateM Machine) α).run :=
  fun _ _ _ => rfl

theorem run_lift {x : StateM Machine α} (hx : Blind x) :
    Blind (ExceptT.lift x : ExceptT ε (StateM Machine) α).run :=
  hx.map _

theorem run_bind {x : ExceptT ε (StateM Machine) α} {f : α → ExceptT ε (StateM Machine) β}
    (hx : Blind x.run) (hf : ∀ a, Blind (f a).run) : Blind (x >>= f).run := by
  change Blind (x.run >>= ExceptT.bindCont f)
  refine hx.bind fun r => ?_
  cases r with
  | error e => exact .pure _
  | ok a => exact hf a

theorem run_tryCatch {x : Run (StateM Machine) α} {handler : Failure → Run (StateM Machine) α}
    (hx : Blind x.run) (hhandler : ∀ failure, Blind (handler failure).run) :
    Blind (tryCatch x handler).run := by
  intro m console logging
  have hfirst : Run.on x (m.showing console logging) =
      ((Run.on x m).1, (Run.on x m).2.showing console logging) := hx m console logging
  change Run.on (tryCatch x handler) (m.showing console logging) =
    ((Run.on (tryCatch x handler) m).1, (Run.on (tryCatch x handler) m).2.showing console logging)
  rw [Run.on_tryCatch, Run.on_tryCatch, hfirst]
  rcases Run.on x m with ⟨failure | a, m'⟩
  · exact hhandler failure m' console logging
  · rfl

theorem run_forM {γ : Type} {l : List γ} {f : γ → ExceptT ε (StateM Machine) Unit}
    (h : ∀ a ∈ l, Blind (f a).run) : Blind (l.forM f).run := by
  induction l with
  | nil => exact .run_pure ()
  | cons a l ih =>
      have hrest := ih fun a' ha' => h a' (List.mem_cons_of_mem a ha')
      exact (h a (List.mem_cons_self ..)).run_bind fun _ => hrest

end Blind

/-! ## Asking a machine -/

section Host

theorem blind_asking {α : Type} (paths : List Path) (name : OsFault.Cause → OsFault)
    {ask : Machine → Except OsFault.Cause (α × Store)}
    (h : ∀ m console logging, ask (Machine.showing m console logging) = ask m) :
    Blind (Machine.asking paths name ask) := by
  intro m console logging
  unfold Machine.asking
  rw [h]
  cases paths.any Path.hasNul with
  | true => rfl
  | false => cases ask m <;> rfl

theorem blind_workingDirectory : Blind (Host.workingDirectory : StateM Machine Path) :=
  fun _ _ _ => rfl

theorem blind_freshNames : Blind (Host.freshNames : StateM Machine (List FreshName)) :=
  fun _ _ _ => rfl

theorem blind_note (record : Log.Record) : Blind (Host.note record : StateM Machine Unit) :=
  fun _ _ _ => rfl

theorem blind_say (message : Terminal.Message) :
    Blind (Host.say message : StateM Machine Unit) :=
  fun _ _ _ => rfl

theorem blind_readFile (path : Path) :
    Blind (Host.readFile path : StateM Machine (Except PathFault Bytes)) :=
  blind_asking _ _ fun _ _ _ => rfl

theorem blind_status (path : Path) :
    Blind (Host.status path : StateM Machine (Except PathFault Status)) :=
  blind_asking _ _ fun _ _ _ => rfl

theorem blind_createFile (path : Path) :
    Blind (Host.createFile path : StateM Machine (Except PathFault Unit)) :=
  blind_asking _ _ fun _ _ _ => rfl

theorem blind_writeFile (path : Path) (content : Bytes) :
    Blind (Host.writeFile path content : StateM Machine (Except PathFault Unit)) :=
  blind_asking _ _ fun _ _ _ => rfl

theorem blind_rename (source target : Path) :
    Blind (Host.rename source target : StateM Machine (Except PathFault Unit)) :=
  blind_asking _ _ fun _ _ _ => rfl

theorem blind_removeFile (path : Path) :
    Blind (Host.removeFile path : StateM Machine (Except PathFault Unit)) :=
  blind_asking _ _ fun _ _ _ => rfl

end Host

/-! ## Working with files -/

namespace Files

theorem blind_value {α : Type} (r : Except Failure α) :
    Blind (value r : Run (StateM Machine) α).run :=
  .pure r

theorem blind_noteAll (records : List Log.Record) :
    Blind (noteAll records : Run (StateM Machine) Unit).run :=
  .run_forM fun record _ => .run_lift (blind_note record)

theorem blind_answerAs {α β : Type} {ask : StateM Machine (Except PathFault α)} (h : Blind ask)
    (meaning : Except PathFault α → Except Failure β) :
    Blind (answerAs meaning ask : Run (StateM Machine) β).run :=
  h.map _

theorem blind_read (path : Path) : Blind (read path : Run (StateM Machine) Bytes).run :=
  blind_answerAs (blind_readFile path) _

theorem blind_status? (path : Path) :
    Blind (status? path : Run (StateM Machine) (Option Status)).run :=
  blind_answerAs (blind_status path) _

theorem blind_size? (path : Path) : Blind (size? path : Run (StateM Machine) (Option Nat)).run := by
  refine (blind_status? path).run_bind fun found => ?_
  split <;> exact .run_pure _

theorem blind_isFile (path : Path) : Blind (isFile path : Run (StateM Machine) Bool).run :=
  (blind_size? path).run_bind fun _ => .run_pure _

theorem blind_createFirst (paths : List Path) :
    Blind (createFirst paths : Run (StateM Machine) Path).run := by
  induction paths with
  | nil => exact .run_throw _
  | cons path rest ih =>
      refine (blind_answerAs (blind_createFile path) creation).run_bind fun created => ?_
      split
      · exact .run_pure path
      · exact ih

theorem blind_discard (path : Path) : Blind (discard path : Run (StateM Machine) Unit).run :=
  blind_answerAs (blind_removeFile path) _

theorem blind_remove (path : Path) : Blind (remove path : Run (StateM Machine) Bool).run :=
  blind_answerAs (blind_removeFile path) _

theorem blind_replace (tempPrefix : String) (target : Path) (content : Bytes) :
    Blind (replace tempPrefix target content : Run (StateM Machine) Nat).run := by
  refine (Blind.run_lift blind_workingDirectory).run_bind fun here =>
    (Blind.run_lift blind_freshNames).run_bind fun names =>
      (blind_createFirst _).run_bind fun _ => .run_bind (.run_tryCatch ?_ ?_)
        fun _ => .run_pure _
  · exact (blind_answerAs (blind_writeFile _ content) _).run_bind fun _ =>
      (blind_status? target).run_bind fun _ => blind_answerAs (blind_rename _ target) _
  · exact fun failure => (blind_discard _).run_bind fun _ => .run_throw failure

end Files

/-! ## Companion files and backends -/

namespace Sidecar

variable (charset : Charset) (t : Text) (base path : Path) (tempPrefix : String) (payload : Bytes)

theorem blind_writeCompanion :
    Blind (writeCompanion tempPrefix path payload : Run (StateM Machine) Path).run :=
  (Files.blind_value _).run_bind fun target =>
    (Files.blind_replace tempPrefix target payload).run_bind fun _ =>
      (Files.blind_noteAll _).run_bind fun _ => .run_pure _

theorem blind_write :
    Blind (write charset tempPrefix path payload : Run (StateM Machine) Path).run := by
  refine (Files.blind_read path).run_bind fun content => (Files.blind_value _).run_bind fun t =>
    (blind_writeCompanion path tempPrefix payload).run_bind fun target =>
      (Files.blind_noteAll _).run_bind fun _ => ?_
  dsimp only
  split
  · exact (Files.blind_value _).run_bind fun octets =>
      (Files.blind_replace tempPrefix path octets).run_bind fun _ => .run_pure _
  · exact .run_pure _

theorem blind_read : Blind (read charset t base : Run (StateM Machine) Bytes).run := by
  refine (Files.blind_noteAll _).run_bind fun _ => (Files.blind_value _).run_bind fun path =>
    .run_bind (.run_tryCatch (Files.blind_read path) fun failure => ?_) fun content => ?_
  · split <;> exact .run_throw _
  · split
    · exact .run_throw _
    · exact .run_pure _

theorem blind_located :
    Blind (located charset t base : Run (StateM Machine) (Option Path)).run := by
  refine (Files.blind_noteAll _).run_bind fun _ => ?_
  split
  · exact .run_pure _
  · split
    · exact .run_pure _
    · exact .run_throw _

theorem blind_remove : Blind (remove charset t base : Run (StateM Machine) Bool).run := by
  refine (blind_located charset t base).run_bind fun found => ?_
  split
  · exact Files.blind_remove _
  · exact .run_pure _

theorem blind_hashRegions :
    Blind (hashRegions charset t base : Run (StateM Machine) (List Region)).run := by
  refine (Files.blind_noteAll _).run_bind fun _ => (Files.blind_value _).run_bind fun path =>
    (Files.blind_size? path).run_bind fun size => ?_
  split
  · exact .run_pure _
  · exact .run_throw _

end Sidecar

namespace Backend

variable (b : Backend) (t : Text) (path : Path) (payload : Bytes)

theorem blind_update : Blind (b.update t path payload : Run (StateM Machine) Text).run :=
  (Files.blind_value _).run_bind fun _ => (Files.blind_noteAll _).run_bind fun _ => .run_pure _

variable [Platform]

theorem blind_wouldChange : Blind (b.wouldChange path payload : Run (StateM Machine) Bool).run := by
  refine (Files.blind_read path).run_bind fun content => (Files.blind_value _).run_bind fun t =>
    (b.blind_update t path payload).run_bind fun t' => ?_
  split
  · exact .run_pure _
  · split
    · exact .run_pure _
    · refine (Files.blind_value _).run_bind fun target =>
        (Files.blind_isFile target).run_bind fun found => ?_
      split
      · exact (Files.blind_read target).run_bind fun _ => .run_pure _
      · exact .run_pure _

theorem blind_hasManifest : Blind (b.hasManifest path : Run (StateM Machine) Bool).run := by
  refine (Files.blind_read path).run_bind fun content => (Files.blind_value _).run_bind fun t => ?_
  split
  · exact .run_pure _
  · refine (Sidecar.blind_located _ t path.parent).run_bind fun found => ?_
    split
    · exact Files.blind_isFile _
    · exact .run_pure _

theorem blind_readAt : Blind (b.readAt path : Run (StateM Machine) Bytes).run := by
  refine (Files.blind_read path).run_bind fun content => (Files.blind_value _).run_bind fun t => ?_
  split
  · exact Files.blind_value _
  · exact Sidecar.blind_read _ t path.parent

theorem blind_hashRegionsAt :
    Blind (b.hashRegionsAt path : Run (StateM Machine) (List Region)).run := by
  refine (Files.blind_read path).run_bind fun content => (Files.blind_value _).run_bind fun t => ?_
  split
  · exact (Files.blind_noteAll _).run_bind fun _ => Files.blind_value _
  · exact Sidecar.blind_hashRegions _ t path.parent

theorem blind_saveAt : Blind (b.saveAt path payload : Run (StateM Machine) Unit).run := by
  unfold saveAt
  split
  · exact (Files.blind_read path).run_bind fun content => (Files.blind_value _).run_bind fun t =>
      (Files.blind_noteAll _).run_bind fun _ => (Files.blind_value _).run_bind fun octets =>
        (Files.blind_replace _ path octets).run_bind fun _ => Files.blind_noteAll _
  · exact (Sidecar.blind_write _ path _ payload).run_bind fun _ => .run_pure _

theorem blind_removeAt : Blind (b.removeAt path : Run (StateM Machine) Bool).run := by
  refine (Files.blind_read path).run_bind fun content => (Files.blind_value _).run_bind fun t => ?_
  split
  · refine (Files.blind_value _).run_bind fun octets => ?_
    split
    · exact (Files.blind_replace _ path octets).run_bind fun _ =>
        (Files.blind_noteAll _).run_bind fun _ => .run_pure _
    · exact .run_pure _
  · refine (Sidecar.blind_remove _ t path.parent).run_bind fun removed => ?_
    dsimp only
    split
    · exact (Files.blind_noteAll _).run_bind fun _ => .run_pure _
    · exact .run_pure _

end Backend

/-! ## Configurations -/

namespace Config

theorem blind_readDocument (path : Path) :
    Blind (readDocument path : Run (StateM Machine) Toml.Entries).run := by
  refine .run_bind (.run_tryCatch (Files.blind_read path) fun failure => ?_) fun content =>
    (Files.blind_value _).run_bind fun t => ?_
  · split <;> exact .run_throw _
  · split
    · exact .run_pure _
    · exact .run_throw _
    · exact .run_throw _
    · exact .run_throw _

theorem blind_fileIn? (directory : Path) :
    Blind (fileIn? directory : Run (StateM Machine) (Option Path)).run := by
  refine (Files.blind_isFile _).run_bind fun own => ?_
  split
  · exact .run_pure _
  · refine (Files.blind_isFile _).run_bind fun project => ?_
    split
    · refine (blind_readDocument _).run_bind fun entries =>
        (Files.blind_value _).run_bind fun table => ?_
      split <;> exact .run_pure _
    · exact .run_pure _

theorem blind_firstIn? (directories : List Path) :
    Blind (firstIn? directories : Run (StateM Machine) (Option Path)).run := by
  induction directories with
  | nil => exact .run_pure _
  | cons directory rest ih =>
      refine (blind_fileIn? directory).run_bind fun found => ?_
      split
      · exact .run_pure _
      · exact ih

theorem blind_discover? (start : Option Path) :
    Blind (discover? start : Run (StateM Machine) (Option Path)).run := by
  refine (Blind.run_lift blind_workingDirectory).run_bind fun here => ?_
  dsimp only
  split
  · exact .run_throw _
  · exact blind_firstIn? _

theorem blind_tableOf (path : Path) : Blind (tableOf path).run :=
  (blind_readDocument path).run_bind fun _ => Files.blind_value _

theorem blind_base (found : Option Path) : Blind (base found).run := by
  cases found with
  | none => exact .run_pure _
  | some path =>
      refine (Files.blind_isFile path).run_bind fun present => ?_
      split
      · refine (blind_tableOf path).run_bind fun table => ?_
        cases table with
        | none => exact (Files.blind_noteAll _).run_bind fun _ => .run_pure _
        | some entries => exact (Files.blind_noteAll _).run_bind fun _ => Files.blind_value _
      · exact .run_throw _

theorem blind_load (path start : Option Path) (search : Bool) (strategy encoding : Option String) :
    Blind (load path start search strategy encoding : Run (StateM Machine) Config).run := by
  have hchosen : Blind (chosen path start search).run := by
    cases path with
    | some path => exact .run_pure _
    | none =>
        cases search with
        | false => exact .run_pure _
        | true => exact blind_discover? start
  rw [load_eq]
  exact hchosen.run_bind fun found => (blind_base found).run_bind fun _ => Files.blind_value _

end Config

end PageManifest
