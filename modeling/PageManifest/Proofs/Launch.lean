import PageManifest.Proofs.Performing

/-! # How a run goes

A run reads the settings, settles how it is shown and goes on with a command.  What it
goes on with does not depend on how it is shown, but for whether more is told.
-/

namespace PageManifest.Command

open Run

variable {m m' : Machine} {words : List String} {call : Call} {line : Line}

/-- The console and the log that settings and the environment ask for. -/
def presentationOf (s : Settings) (level : Option Text) :
    Except Stop (Terminal.Console × Log.Setup) :=
  match verbosity s.verbose s.quiet with
  | .error e => .error (.error e)
  | .ok verbosity =>
      match Log.environmentLevel level >>= fun asked => Log.effectiveLevel asked level with
      | .error fault => .error (.failure (.badLevel fault))
      | .ok threshold => .ok (⟨s.color, verbosity⟩, ⟨threshold, s.color⟩)

/-- What a run does once it is settled how it is shown. -/
def proceed [Platform] (program : String) (s : Settings) (verb : Option Verb) (words : List String)
    (detailed : Bool) : Act (StateM Machine) Status := do
  let c ← configFor s
  match verb with
  | none => do
      say (.ofLine hint.toList)
      say (.ofLine [])
      sayPage ⟨program, Settings.manual⟩
      pure .success
  | some verb =>
      runVerb verb ⟨program ++ " " ++ verb.name, verb.manual (some 'h')⟩ c detailed words

/-- How a run goes on behind its settings. -/
def launch [Platform] (program : String) (level : Option Text) :
    Except Stop Opening × Machine → Ending × Machine
  | (.error stop, m) => (.ofStop Terminal.plain stop, m)
  | (.ok .page, m) =>
      ended Terminal.plain (on (do sayPage ⟨program, Settings.manual⟩; pure .success) m)
  | (.ok (.ready s verb words), m) =>
      match presentationOf s level with
      | .error stop => (.ofStop Terminal.plain stop, m)
      | .ok (console, logging) =>
          ended console.shown (on (proceed program s verb words (0 < console.verbosity))
            (m.showing console (some logging)))

theorem run_presentation (s : Settings) (level : Option Text) (m : Machine) :
    StateT.run (ExceptT.run (consoleFor s >>= fun console => loggingFor s level >>= fun logging =>
      pure (console, logging) : Act (StateM Machine) (Terminal.Console × Log.Setup))) m =
        (presentationOf s level, m) := by
  unfold presentationOf consoleFor loggingFor
  cases verbosity s.verbose s.quiet with
  | error e => rfl
  | ok v =>
      cases Log.environmentLevel level >>= fun asked => Log.effectiveLevel asked level <;> rfl

theorem run_eq [Platform] (program : String) (words : List String) (level : Option Text)
    (m : Machine) :
    (run program words level : StateM Machine Ending).run m =
      launch program level (on (opening ⟨program, Settings.manual⟩ words) m) := by
  have hopening : StateT.run (ExceptT.run
      (opening ⟨program, Settings.manual⟩ words : Act (StateM Machine) Opening)) m =
        on (opening ⟨program, Settings.manual⟩ words) m := rfl
  unfold run
  dsimp only
  rw [StateT.run_bind, hopening]
  rcases on (opening ⟨program, Settings.manual⟩ words) m with ⟨stop | o, m'⟩
  · rfl
  · cases o with
    | page => exact run_ending _ _ m'
    | ready s verb rest =>
        change StateT.run _ m' = _
        dsimp only
        rw [StateT.run_bind, run_presentation, launch]
        rcases presentationOf s level with stop | ⟨console, logging⟩
        · rfl
        · change (ending console.shown (proceed program s verb rest (0 < console.verbosity)) :
            StateM Machine Ending).run (m'.showing console (some logging)) = _
          exact run_ending _ _ _

/-! ## Steps that leave a machine as it is -/

/-- A step that leaves a machine as it is, with what was said and noted on it. -/
def Still {ε α : Type} (x : ExceptT ε (StateM Machine) α) : Prop :=
  ∀ m : Machine, (x.run m).2 = m

namespace Still

variable {ε α β : Type}

theorem pure (a : α) : Still (Pure.pure a : ExceptT ε (StateM Machine) α) :=
  fun _ => rfl

theorem throw (e : ε) : Still (throw e : ExceptT ε (StateM Machine) α) :=
  fun _ => rfl

theorem bind {x : ExceptT ε (StateM Machine) α} {f : α → ExceptT ε (StateM Machine) β}
    (hx : Still x) (hf : ∀ a, Still (f a)) : Still (x >>= f) := by
  intro m
  have hrun : (x >>= f).run m = (ExceptT.bindCont f (x.run m).1 : StateM Machine _) (x.run m).2 :=
    rfl
  rw [hrun, hx m]
  rcases (x.run m).1 with e | a
  · rfl
  · exact hf a m

theorem forM {γ : Type} {l : List γ} {f : γ → ExceptT ε (StateM Machine) Unit}
    (h : ∀ a ∈ l, Still (f a)) : Still (l.forM f) := by
  induction l with
  | nil => exact .pure ()
  | cons a l ih =>
      have hrest := ih fun a' ha' => h a' (List.mem_cons_of_mem a ha')
      exact (h a (List.mem_cons_self ..)).bind fun _ => hrest

end Still

theorem still_status (path : Path) :
    Still (ExceptT.lift (Host.status path) :
      Act (StateM Machine) (Except PathFault PageManifest.Status)) := by
  intro m
  change ((Host.status path : StateM Machine _) m).2 = m
  rw [run_status]

theorem still_checkValue (call : Call) (label : String) (takes : Takes) (value : String) :
    Still (checkValue call label takes value : Act (StateM Machine) Unit) := by
  unfold checkValue
  cases takes with
  | nothing => exact .pure _
  | text => exact .pure _
  | choice names =>
      dsimp only
      split
      · exact .throw _
      · exact .pure _
  | file =>
      dsimp only
      split
      · refine .bind (still_status _) fun found => ?_
        split
        · exact .throw _
        · exact .pure _
        · exact .pure _
        · exact .throw _
      · exact .pure _

theorem still_checkGiven (call : Call) (line : Line) :
    Still (checkGiven call line : Act (StateM Machine) Unit) :=
  .forM fun s _ => still_checkValue call s.label s.takes _

/-! ## Reading settings -/

/-- What a line of settings comes to. -/
def opened (call : Call) (line : Line) : Act (StateM Machine) Opening := do
  if line.has "help" then pure .page
  else
    match line.operands with
    | [] => pure (.ready (.ofLine line) none [])
    | name :: rest =>
        match Verb.ofName? name with
        | some verb => pure (.ready (.ofLine line) (some verb) rest)
        | none => do
            let again ← readSettings call line.operands
            if again.has "help" then pure .page
            else
              throw (.line call (.noCommand name
                (Diff.similar name (Verb.all.map Verb.name))))

/-- What is checked of a line of settings. -/
def settled (call : Call) (line : Line) : Act (StateM Machine) Unit :=
  if line.has "help" then pure () else checkGiven call line

theorem still_settled (call : Call) (line : Line) : Still (settled call line) := by
  unfold settled
  split
  · exact .pure _
  · exact still_checkGiven call line

theorem readSettings_of_ok (h : Line.read call.manual.switches false words = .ok line) :
    readSettings call words = settled call line >>= fun _ => pure line := by
  unfold readSettings readLine settled
  rw [h, pure_bind]
  cases line.has "help" <;> rfl

theorem opening_of_ok (h : Line.read call.manual.switches false words = .ok line) :
    opening call words = settled call line >>= fun _ => opened call line := by
  unfold opening
  rw [readSettings_of_ok h, bind_assoc]
  rfl

/-- A line of settings that is accepted with the name of a command behind it. -/
theorem opening_ready {verb : Verb} {rest : List String}
    (hread : Line.read call.manual.switches false words = .ok line)
    (hhelp : line.has "help" = false) (hchecked : (on (checkGiven call line) m).1 = .ok ())
    (hoperands : line.operands = verb.name :: rest) :
    (on (opening call words) m).1 = .ok (.ready (.ofLine line) (some verb) rest) := by
  have hsettled : on (settled call line) m = (.ok (), m) := by
    refine Prod.ext ?_ (still_settled call line m)
    rwa [settled, hhelp, if_neg Bool.false_ne_true]
  rw [opening_of_ok hread, on_bind_of_ok hsettled, opened, hhelp,
    if_neg Bool.false_ne_true, hoperands]
  simp only [Verb.ofName?_name]
  rfl

theorem opening_of_error {fault : LineFault}
    (h : Line.read call.manual.switches false words = .error fault) :
    opening call words = (throw (.line call fault) : Act (StateM Machine) Opening) := by
  unfold opening readSettings readLine
  rw [h]
  rfl

theorem still_readSettings (call : Call) (words : List String) :
    Still (readSettings call words : Act (StateM Machine) Line) := by
  cases hread : Line.read call.manual.switches false words with
  | error fault =>
      unfold readSettings readLine
      rw [hread]
      exact .throw _
  | ok line =>
      rw [readSettings_of_ok hread]
      exact (still_settled call line).bind fun _ => .pure _

theorem still_opening (call : Call) (words : List String) :
    Still (opening call words : Act (StateM Machine) Opening) := by
  cases hread : Line.read call.manual.switches false words with
  | error fault =>
      rw [opening_of_error hread]
      exact .throw _
  | ok line =>
      rw [opening_of_ok hread]
      refine (still_settled call line).bind fun _ => ?_
      unfold opened
      split
      · exact .pure _
      · split
        · exact .pure _
        · split
          · exact .pure _
          · refine (still_readSettings call _).bind fun again => ?_
            split
            · exact .pure _
            · exact .throw _

theorem settings_of_opened {s : Settings} {verb : Option Verb} {rest : List String}
    (h : (on (opened call line) m).1 = .ok (.ready s verb rest)) : s = .ofLine line := by
  unfold opened at h
  cases hhelp : line.has "help" with
  | true =>
      rw [hhelp] at h
      cases h
  | false =>
      rw [hhelp] at h
      cases hoperands : line.operands with
      | nil =>
          rw [hoperands] at h
          cases h
          rfl
      | cons name words =>
          rw [hoperands] at h
          cases hverb : Verb.ofName? name with
          | some verb' =>
              simp only [Bool.false_eq_true, if_false, hverb] at h
              cases h
              rfl
          | none =>
              simp only [Bool.false_eq_true, if_false, hverb] at h
              obtain ⟨again, m₁, -, h⟩ := exists_of_fst_on_bind h
              cases hagain : again.has "help" with
              | true =>
                  rw [hagain] at h
                  cases h
              | false =>
                  rw [hagain] at h
                  cases h

/-- The settings that a run is ready with are those of its line. -/
theorem line_of_opening {s : Settings} {verb : Option Verb} {rest : List String}
    (h : (on (opening call words) m).1 = .ok (.ready s verb rest)) :
    ∃ line, Line.read call.manual.switches false words = .ok line ∧ s = .ofLine line := by
  cases hread : Line.read call.manual.switches false words with
  | error fault =>
      rw [opening_of_error hread] at h
      cases h
  | ok line =>
      refine ⟨line, rfl, ?_⟩
      rw [opening_of_ok hread] at h
      obtain ⟨-, m₁, -, h⟩ := exists_of_fst_on_bind h
      exact settings_of_opened h

end PageManifest.Command
