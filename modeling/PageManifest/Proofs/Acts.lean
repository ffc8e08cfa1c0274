import PageManifest.Command.Program
import PageManifest.Proofs.Documents

/-! # Actions on machines

Commands act on a machine as operations do, and stop where these fail.  What a
command asks of its backend is an operation whose failure it passes on, so what is
known of the operation is known of the command.
-/

namespace PageManifest.Command

open Run

variable {α β : Type} {m m' : Machine} {stop : Stop}

theorem on_say (message : Terminal.Message) (m : Machine) :
    on (say message : Act (StateM Machine) Unit) m =
      (.ok (), { m with said := m.said ++ [message] }) := rfl

/-- A failure of an operation stops the action with the error that reports it. -/
theorem on_reporting (document : Option Path) (operation : Run (StateM Machine) α) (m : Machine) :
    on (reporting document operation) m =
      ((on operation m).1.mapError (Stop.ofFailure document), (on operation m).2) := rfl

theorem on_reporting_of_ok {operation : Run (StateM Machine) α} {a : α}
    (h : on operation m = (.ok a, m')) (document : Option Path) :
    on (reporting document operation) m = (.ok a, m') := by
  rw [on_reporting, h]
  rfl

theorem on_reporting_of_error {operation : Run (StateM Machine) α} {failure : Failure}
    (h : on operation m = (.error failure, m')) (document : Option Path) :
    on (reporting document operation) m = (.error (.ofFailure document failure), m') := by
  rw [on_reporting, h]
  rfl

/-! ## Actions that leave files alone -/

theorem quiet_say (message : Terminal.Message) : Quiet (say message : Act (StateM Machine) Unit) :=
  ⟨fun _ => ⟨rfl, rfl, rfl⟩, fun _ _ _ => rfl⟩

theorem quiet_reporting {operation : Run (StateM Machine) α} (h : Quiet operation)
    (document : Option Path) :
    Quiet (reporting document operation : Act (StateM Machine) α) :=
  ⟨h.left, fun m m' left =>
    congrArg (Except.mapError (Stop.ofFailure document)) (h.same m m' left)⟩

theorem on_tell (document : Path) (message : String) (color : Option Terminal.Color)
    (m : Machine) : ∃ m', on (tell document message color) m = (.ok (), m') ∧
      m.Left m' m.store :=
  ⟨_, on_say _ m, rfl, rfl, rfl⟩

/-! ## Why actions stop -/

/-- An action that stops for reasons of some kind, if at all. -/
def StopsFor (P : Stop → Prop) (x : Act (StateM Machine) α) : Prop :=
  ∀ m stop, (on x m).1 = .error stop → P stop

namespace StopsFor

variable {P : Stop → Prop} {x : Act (StateM Machine) α} {f : α → Act (StateM Machine) β}

theorem pure (a : α) : StopsFor P (Pure.pure a : Act (StateM Machine) α) := by
  intro m stop h
  cases h

theorem throw (h : P stop) : StopsFor P (throw stop : Act (StateM Machine) α) := by
  intro m stop' hstop
  obtain rfl : stop = stop' := Except.error.inj hstop
  exact h

theorem lift (x : StateM Machine α) : StopsFor P (ExceptT.lift x) := by
  intro m stop h
  cases h

theorem bind (hx : StopsFor P x) (hf : ∀ a, StopsFor P (f a)) : StopsFor P (x >>= f) := by
  intro m stop h
  have hfirst := hx m
  rw [on_bind] at h
  rcases hrun : on x m with ⟨stop' | a, m'⟩
  · rw [hrun] at h hfirst
    obtain rfl : stop' = stop := Except.error.inj h
    exact hfirst stop' rfl
  · rw [hrun] at h
    exact hf a m' stop h

theorem forM {γ : Type} {l : List γ} {f : γ → Act (StateM Machine) Unit}
    (h : ∀ a ∈ l, StopsFor P (f a)) : StopsFor P (l.forM f) := by
  induction l with
  | nil => exact .pure ()
  | cons a l ih =>
      have hrest := ih fun a' ha' => h a' (List.mem_cons_of_mem a ha')
      exact (h a (List.mem_cons_self ..)).bind fun _ => hrest

theorem reporting {document : Option Path} (h : ∀ failure, P (.ofFailure document failure))
    (operation : Run (StateM Machine) α) : StopsFor P (reporting document operation) := by
  intro m stop hstop
  rw [on_reporting] at hstop
  cases hrun : (on operation m).1 with
  | error failure =>
      rw [hrun] at hstop
      obtain rfl := Except.error.inj hstop
      exact h failure
  | ok a =>
      rw [hrun] at hstop
      cases hstop

end StopsFor

/-- A stop that is told apart from success and from a change that is only foretold. -/
def Stop.Serious : Stop → Prop
  | .line _ _ => True
  | .error e => e.status ≠ .success ∧ e.status ≠ .wouldChange
  | .failure _ => True

theorem serious_ofFailure (document : Option Path) (failure : Failure) :
    (Stop.ofFailure document failure).Serious := by
  unfold Stop.ofFailure Error.ofFailure? Error.ofCategory?
  cases document <;> cases failure.category <;> simp [Status.ofCategory?, Stop.Serious]

theorem ofFailure_ne_line (document : Option Path) (failure : Failure) (call : Call)
    (fault : LineFault) : Stop.ofFailure document failure ≠ .line call fault := by
  unfold Stop.ofFailure
  split <;> exact fun h => by cases h

theorem code_of_serious (shown : Text → Text) (h : stop.Serious)
    (hline : ∀ call fault, stop ≠ .line call fault) :
    (Ending.ofStop shown stop).code ≠ 0 ∧ (Ending.ofStop shown stop).code ≠ 2 := by
  cases stop with
  | line call fault => exact absurd rfl (hline call fault)
  | failure failure => simp [Ending.ofStop, Ending.code]
  | error e =>
      obtain ⟨status, message⟩ := e
      cases status <;> simp_all [Stop.Serious, Ending.ofStop, Ending.code, Status.code]

/-- An action that leaves all files as they are, and stops for serious reasons. -/
structure Careful (x : Act (StateM Machine) α) : Prop where
  quiet : Quiet x
  serious : StopsFor Stop.Serious x

namespace Careful

theorem exists_on {x : Act (StateM Machine) α} (h : Careful x) (m : Machine) :
    ∃ r m', on x m = (r, m') ∧ m.Left m' m.store :=
  ⟨_, _, rfl, h.quiet.left m⟩

theorem pure (a : α) : Careful (Pure.pure a : Act (StateM Machine) α) :=
  ⟨.pure a, .pure a⟩

theorem throw (h : stop.Serious) : Careful (throw stop : Act (StateM Machine) α) :=
  ⟨.throw stop, .throw h⟩

theorem bind {x : Act (StateM Machine) α} {f : α → Act (StateM Machine) β} (hx : Careful x)
    (hf : ∀ a, Careful (f a)) : Careful (x >>= f) :=
  ⟨hx.quiet.bind fun a => (hf a).quiet, hx.serious.bind fun a => (hf a).serious⟩

theorem forM {γ : Type} {l : List γ} {f : γ → Act (StateM Machine) Unit}
    (h : ∀ a ∈ l, Careful (f a)) : Careful (l.forM f) :=
  ⟨.forM fun a ha => (h a ha).quiet, .forM fun a ha => (h a ha).serious⟩

theorem reporting {operation : Run (StateM Machine) α} (h : Quiet operation)
    (document : Option Path) : Careful (reporting document operation) :=
  ⟨quiet_reporting h document, .reporting (serious_ofFailure document) operation⟩

theorem say (message : Terminal.Message) : Careful (say message) :=
  ⟨quiet_say message, .lift _⟩

end Careful

/-! ## The backend of a document -/

/-- The name, ending or media type by which a document is told to be handled or not. -/
def assetType (document : Path) : String :=
  if document.suffix = "" then document.name else document.suffix

/-- The backend of a document with a configuration. -/
def backendOf (c : Config) (document : Path) : Backend :=
  ⟨c.strategy, c, document.parent, some document⟩

theorem findFor_builtIn (s : Strategy) (document : Path) :
    Backend.Registry.builtIn.findFor (assetType document) s.name =
      if Backend.supports (assetType document) then
        .ok (match s with | .inline => .inline | .sidecar => .sidecar)
      else .error (.unsupportedAsset (assetType document)) := by
  unfold Backend.Registry.findFor Backend.Registry.find
  cases s <;> rfl

/-- A document has a backend if it is handled at all; choosing it changes nothing. -/
theorem on_backendFor (c : Config) (document : Path) (m : Machine) :
    on (backendFor c document) m =
      (if Backend.supports (assetType document) then .ok (backendOf c document)
        else .error (.ofFailure (some document) (.unsupportedAsset (assetType document))), m) := by
  have hfind : on (reporting (some document) (Files.value
      (Backend.Registry.builtIn.findFor (assetType document) c.strategy.name))) m =
        ((Backend.Registry.builtIn.findFor (assetType document) c.strategy.name).mapError
          (Stop.ofFailure (some document)), m) := rfl
  change on (reporting (some document) (Files.value
    (Backend.Registry.builtIn.findFor (assetType document) c.strategy.name)) >>=
      fun _ => pure (backendOf c document)) m = _
  rw [on_bind, hfind, findFor_builtIn]
  cases Backend.supports (assetType document) <;> rfl

/-! ## How actions end -/

/-- How a run ends whose action yields this on a machine. -/
def ended (shown : Text → Text) : Except Stop Status × Machine → Ending × Machine
  | (.ok status, m) => (.ended status [], m)
  | (.error stop, m) => (.ofStop shown stop, m)

theorem run_ending (shown : Text → Text) (action : Act (StateM Machine) Status) (m : Machine) :
    (ending shown action).run m = ended shown (on action m) := by
  have hrun : StateT.run (ExceptT.run action) m = on action m := rfl
  simp only [ending, StateT.run_bind, hrun]
  rcases on action m with ⟨_ | _, m'⟩ <;> rfl

end PageManifest.Command
