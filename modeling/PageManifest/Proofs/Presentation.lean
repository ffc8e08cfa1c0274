import PageManifest.Platform.Bundled
import PageManifest.Proofs.Flags
import PageManifest.Proofs.Launch

/-! # How a run is shown does not change what it does

Asking for quiet, for no colours or for another log settles how a run is shown.  The
settings differ in nothing else, so the run does the same on the machine; only the
console and the log make another thing of it.
-/

namespace PageManifest

open Run

/-- The data that was written, without what was told of how things stand. -/
def Machine.data (m : Machine) : Text :=
  (m.said.filter fun message => !message.isStatus).flatMap m.console.written

namespace Command

variable {m m' : Machine} {line line' : Line} {g : Given} {words words' : List String}
  {call : Call} {level level' : Option Text} {program : String}

/-! ## Reading settings -/

/-- The settings of a run, changed in some way. -/
def Opening.map (f : Settings → Settings) : Opening → Opening
  | .page => .page
  | .ready s verb words => .ready (f s) verb words

theorem opened_of_gains (h : line'.Gains line g) (hhelp : "help" ≠ g.switch.name)
    {f : Settings → Settings} (hf : Settings.ofLine line' = f (Settings.ofLine line)) :
    opened call line' = Opening.map f <$> opened call line := by
  unfold opened
  rw [h.has_eq hhelp, h.operands, hf]
  cases line.has "help" with
  | true => rfl
  | false =>
      cases line.operands with
      | nil => rfl
      | cons name rest =>
          dsimp only
          cases Verb.ofName? name with
          | some verb => rfl
          | none =>
              simp only [Bool.false_eq_true, if_false, map_bind]
              refine bind_congr fun again => ?_
              cases again.has "help" <;> rfl

theorem settled_of_gains (h : line'.Gains line g) (hhelp : "help" ≠ g.switch.name)
    (hflag : g.switch.takes = .nothing)
    (hother : ∀ s ∈ line.distinct, s.takes ≠ .nothing → s.name ≠ g.switch.name) :
    settled call line' = settled call line := by
  unfold settled
  rw [h.has_eq hhelp, h.checkGiven_eq hflag hother]

/-- A switch for all commands that takes no value, and whose name no other switch has. -/
structure IsFlag (g : Given) : Prop where
  flag : g.switch.takes = .nothing
  noHelp : "help" ≠ g.switch.name
  alone : ∀ s ∈ Settings.switches, s.takes ≠ .nothing → s.name ≠ g.switch.name

theorem opening_of_adds (h : Adds Settings.switches g words words') (hg : IsFlag g)
    (hcall : call.manual = Settings.manual) {f : Settings → Settings}
    (hf : ∀ line line' : Line, line'.Gains line g →
      Settings.ofLine line' = f (Settings.ofLine line)) :
    (opening call words' : Act (StateM Machine) Opening) =
      Opening.map f <$> opening call words := by
  have hswitches : call.manual.switches = Settings.switches := by rw [hcall]; rfl
  have hgained := gained_of_adds h false
  rw [← hswitches] at hgained
  generalize hread : Line.read call.manual.switches false words = r at hgained
  generalize hread' : Line.read call.manual.switches false words' = r' at hgained
  cases hgained with
  | fault fault =>
      rw [opening_of_error hread, opening_of_error hread']
      rfl
  | @line line line' hgains =>
      have hother : ∀ s ∈ line.distinct, s.takes ≠ .nothing → s.name ≠ g.switch.name := by
        intro s hs
        obtain ⟨given, hgiven, rfl⟩ := List.mem_map.mp (List.mem_eraseDups.mp hs)
        have hmem := switch_mem_of_read hread given hgiven
        rw [hswitches] at hmem
        exact hg.alone _ hmem
      rw [opening_of_ok hread, opening_of_ok hread', map_bind,
        settled_of_gains hgains hg.noHelp hg.flag hother,
        opened_of_gains hgains hg.noHelp (hf line line' hgains)]

/-! ## Flags for the presentation -/

/-- Asking for data only. -/
def quietly : Given :=
  ⟨⟨some 'q', "quiet", .nothing, false, "Suppress output."⟩, ""⟩

/-- Asking for output without colours. -/
def colorlessly : Given :=
  ⟨flag "no-color" "Disable colored output.", ""⟩

theorem isFlag_quietly : IsFlag quietly :=
  ⟨rfl, by decide, by decide⟩

theorem isFlag_colorlessly : IsFlag colorlessly :=
  ⟨rfl, by decide, by decide⟩

def Settings.hushed (s : Settings) : Settings :=
  { s with quiet := s.quiet + 1 }

def Settings.bleached (s : Settings) : Settings :=
  { s with color := false }

theorem ofLine_hushed (h : line'.Gains line quietly) :
    Settings.ofLine line' = (Settings.ofLine line).hushed := by
  have hcount : line'.count "quiet" = line.count "quiet" + 1 := h.count_self
  rw [Settings.ofLine, Settings.ofLine, hcount, h.count_eq (by decide), h.has_eq (by decide),
    h.value?_eq (by decide), h.value?_eq (by decide), h.value?_eq (by decide)]
  rfl

theorem ofLine_bleached (h : line'.Gains line colorlessly) :
    Settings.ofLine line' = (Settings.ofLine line).bleached := by
  have hhas : line'.has "no-color" = true := h.has_self
  rw [Settings.ofLine, Settings.ofLine, hhas, h.count_eq (by decide), h.count_eq (by decide),
    h.value?_eq (by decide), h.value?_eq (by decide), h.value?_eq (by decide)]
  rfl

/-! ## Presentations -/

/-- A console and a log, as a run is shown. -/
abbrev Shown := Terminal.Console × Log.Setup

def Shown.hushed (p : Shown) : Shown :=
  ({ p.1 with verbosity := -1 }, p.2)

def Shown.bleached (p : Shown) : Shown :=
  ({ p.1 with color := false }, { p.2 with color := false })

def Shown.logging (threshold : Int) (p : Shown) : Shown :=
  (p.1, { p.2 with threshold := threshold })

theorem presentationOf_hushed {s : Settings} (h : s.verbose = 0) (level : Option Text) :
    presentationOf s.hushed level = (presentationOf s level).map Shown.hushed := by
  have hquiet : verbosity s.hushed.verbose s.hushed.quiet = .ok (-1) := by
    simp [verbosity, Settings.hushed, h]
  obtain ⟨v, hv⟩ : ∃ v, verbosity s.verbose s.quiet = .ok v := by
    rw [verbosity, h, if_neg fun hboth => absurd hboth.1 (Nat.lt_irrefl 0)]
    split
    · exact ⟨-1, rfl⟩
    · exact ⟨_, rfl⟩
  unfold presentationOf
  rw [hquiet, hv]
  dsimp only
  cases Log.environmentLevel level >>= fun asked => Log.effectiveLevel asked level <;> rfl

/-- Where no more is asked for, no more than the usual is told. -/
theorem not_detailed {s : Settings} {p : Shown} (hverbose : s.verbose = 0)
    (h : presentationOf s level = .ok p) : ¬ 0 < p.1.verbosity := by
  have hv : verbosity s.verbose s.quiet = .ok (if 0 < s.quiet then -1 else 0) := by
    rw [verbosity, hverbose, if_neg fun hboth => absurd hboth.1 (Nat.lt_irrefl 0)]
    split <;> rfl
  unfold presentationOf at h
  rw [hv] at h
  dsimp only at h
  split at h
  · cases h
  · obtain rfl := Except.ok.inj h
    dsimp only
    split <;> decide

theorem presentationOf_bleached (s : Settings) (level : Option Text) :
    presentationOf s.bleached level = (presentationOf s level).map Shown.bleached := by
  unfold presentationOf Settings.bleached
  dsimp only
  cases verbosity s.verbose s.quiet with
  | error e => rfl
  | ok v =>
      dsimp only
      cases Log.environmentLevel level >>= fun asked => Log.effectiveLevel asked level <;> rfl

/-- A level that can be read gives a threshold. -/
theorem exists_threshold (h : ∃ asked, Log.environmentLevel level = .ok asked) :
    ∃ threshold, (Log.environmentLevel level >>= fun asked => Log.effectiveLevel asked level) =
      .ok threshold := by
  obtain ⟨asked, hasked⟩ := h
  cases asked with
  | some severity =>
      refine ⟨severity, ?_⟩
      rw [hasked]
      rfl
  | none =>
      refine ⟨Log.Level.critical.severity, ?_⟩
      rw [hasked]
      change Log.effectiveLevel none level = _
      rw [Log.effectiveLevel, hasked]
      rfl

theorem presentationOf_logging (h : ∃ asked, Log.environmentLevel level = .ok asked)
    (h' : ∃ asked, Log.environmentLevel level' = .ok asked) :
    ∃ threshold, ∀ s, presentationOf s level' =
      (presentationOf s level).map (Shown.logging threshold) := by
  obtain ⟨threshold, hthreshold⟩ := exists_threshold h
  obtain ⟨threshold', hthreshold'⟩ := exists_threshold h'
  refine ⟨threshold', fun s => ?_⟩
  unfold presentationOf
  rw [hthreshold, hthreshold']
  cases verbosity s.verbose s.quiet <;> rfl

/-! ## Runs that are shown otherwise -/

/-- The end of a run by what its action yields. -/
def Ending.ofResult (shown : Text → Text) : Except Stop Status → Ending
  | .ok status => .ended status []
  | .error stop => .ofStop shown stop

theorem ended_eq (shown : Text → Text) (x : Except Stop Status × Machine) :
    ended shown x = (.ofResult shown x.1, x.2) := by
  rcases x with ⟨_ | _, m⟩ <;> rfl

/--
Two runs that do the same: they stop in the same way before anything is shown otherwise,
or they end with the same result on one machine, each with its own presentation.
-/
inductive Reshown (change : Shown → Shown) : Ending × Machine → Ending × Machine → Prop
  | same {x : Ending × Machine} (h : ∀ message ∈ x.2.said, message.isStatus = false) :
      Reshown change x x
  | shown (p : Shown) (r : Except Stop Status) (m : Machine) :
      Reshown change (.ofResult p.1.shown r, m.showing p.1 (some p.2))
        (.ofResult (change p).1.shown r, m.showing (change p).1 (some (change p).2))

/-- The messages of a quiet console are those that are no status. -/
theorem flatMap_written_quiet (c : Terminal.Console) (messages : List Terminal.Message) :
    messages.flatMap ({ c with verbosity := -1 } : Terminal.Console).written =
      (messages.filter fun message => !message.isStatus).flatMap c.written := by
  induction messages with
  | nil => rfl
  | cons message messages ih =>
      rw [List.flatMap_cons, ih]
      cases message <;> rfl

theorem data_of_silent (h : ∀ message ∈ m.said, message.isStatus = false) : m.data = m.output := by
  have hall : (m.said.filter fun message => !message.isStatus) = m.said := by
    refine List.filter_eq_self.mpr fun message hmessage => ?_
    rw [h message hmessage]
    rfl
  rw [Machine.data, hall]
  rfl

theorem code_ofResult (shown shown' : Text → Text) (r : Except Stop Status) :
    (Ending.ofResult shown r).code = (Ending.ofResult shown' r).code := by
  rcases r with (_ | _ | _) | _ <;> rfl

/-- A run that tells less: it does the same, and writes the data of the other run only. -/
structure Hushes (x y : Ending × Machine) : Prop where
  ending : y.1 = x.1
  store : y.2.store = x.2.store
  log : y.2.log = x.2.log
  output : y.2.output = x.2.data

theorem Reshown.hushes {x y : Ending × Machine} (h : Reshown Shown.hushed x y) : Hushes x y := by
  cases h with
  | same h => exact ⟨rfl, rfl, rfl, (data_of_silent h).symm⟩
  | shown p r m => exact ⟨rfl, rfl, rfl, flatMap_written_quiet p.1 m.said⟩

theorem Reshown.store {change : Shown → Shown} {x y : Ending × Machine} (h : Reshown change x y) :
    y.2.store = x.2.store := by
  cases h <;> rfl

theorem Reshown.code {change : Shown → Shown} {x y : Ending × Machine} (h : Reshown change x y) :
    y.1.code = x.1.code := by
  cases h with
  | same => rfl
  | shown p r m => exact code_ofResult _ _ r

/-- Another log makes no other output. -/
theorem Reshown.relogged {threshold : Int} {x y : Ending × Machine}
    (h : Reshown (Shown.logging threshold) x y) : y.1 = x.1 ∧ y.2.output = x.2.output := by
  cases h <;> exact ⟨rfl, rfl⟩

/-! ## What a run does whatever it is shown on -/

theorem blind_configFor (s : Settings) : Blind (configFor s : Act (StateM Machine) Config).run :=
  blind_reporting (Config.blind_load _ _ _ _ _) _

section Results

variable [Platform] {change : Shown → Shown} {f : Settings → Settings}

theorem blind_proceed (program : String) (s : Settings) (verb : Option Verb)
    (words : List String) (detailed : Bool) :
    Blind (proceed program s verb words detailed).run := by
  refine (blind_configFor s).run_bind fun c => ?_
  cases verb with
  | none =>
      exact (blind_say _).run_bind fun _ => (blind_say _).run_bind fun _ =>
        (blind_sayPage _).run_bind fun _ => .run_pure _
  | some verb => exact blind_runVerb c verb _ detailed words

theorem launch_ready {s : Settings} {verb : Option Verb} {rest : List String} {p : Shown}
    (h : presentationOf s level = .ok p) (program : String) (m : Machine) :
    launch program level (.ok (.ready s verb rest), m) =
      (.ofResult p.1.shown (on (proceed program s verb rest (0 < p.1.verbosity)) m).1,
        (on (proceed program s verb rest (0 < p.1.verbosity)) m).2.showing p.1 (some p.2)) := by
  have hblind : on (proceed program s verb rest (0 < p.1.verbosity))
      (m.showing p.1 (some p.2)) = _ := blind_proceed program s verb rest _ m p.1 (some p.2)
  simp only [launch, h]
  rw [hblind, ended_eq]
  rfl

theorem reshown_launch {o : Except Stop Opening} (hsaid : m.said = [])
    (hproceed : ∀ s verb rest detailed,
      proceed program (f s) verb rest detailed = proceed program s verb rest detailed)
    (hpresentation : ∀ s verb rest, o = .ok (.ready s verb rest) →
      presentationOf (f s) level' = (presentationOf s level).map change ∧
        ∀ p, presentationOf s level = .ok p →
          (0 < (change p).1.verbosity ↔ 0 < p.1.verbosity)) :
    Reshown change (launch program level (o, m))
      (launch program level' (o.map (Opening.map f), m)) := by
  have hsilent : ∀ message ∈ m.said, message.isStatus = false := by
    rw [hsaid]
    exact fun _ h => by cases h
  rcases o with stop | _ | ⟨s, verb, rest⟩
  · exact .same hsilent
  · refine .same fun message hmessage => ?_
    have hmem : message ∈ m.said ++ [.text (Settings.manual.page program)] := hmessage
    rw [hsaid, List.nil_append, List.mem_singleton] at hmem
    rw [hmem]
    rfl
  · obtain ⟨hmap, hdetailed⟩ := hpresentation s verb rest rfl
    change Reshown change (launch program level (.ok (.ready s verb rest), m))
      (launch program level' (.ok (.ready (f s) verb rest), m))
    cases hp : presentationOf s level with
    | error stop =>
        have hsame : presentationOf (f s) level' = .error stop := by
          rw [hmap, hp]
          rfl
        simp only [launch, hp, hsame]
        exact .same hsilent
    | ok p =>
        rw [hp] at hmap
        rw [launch_ready hp, launch_ready hmap, hproceed, decide_eq_decide.mpr (hdetailed p hp)]
        exact .shown p _ _

/-! ## Results -/

/-- How a run ends, and the machine that it leaves. -/
def outcome (program : String) (words : List String) (level : Option Text) (m : Machine) :
    Ending × Machine :=
  (run program words level : StateM Machine Ending).run m

theorem outcome_eq (program : String) (words : List String) (level : Option Text) (m : Machine) :
    outcome program words level m =
      launch program level ((on (opening ⟨program, Settings.manual⟩ words) m).1, m) := by
  have hstill : (on (opening ⟨program, Settings.manual⟩ words) m).2 = m :=
    still_opening _ words m
  rw [outcome, run_eq]
  rcases hopening : on (opening ⟨program, Settings.manual⟩ words) m with ⟨r, m'⟩
  rw [hopening] at hstill
  obtain rfl : m' = m := hstill
  rfl

theorem outcome_of_adds (h : Adds Settings.switches g words words') (hg : IsFlag g)
    {f : Settings → Settings} (hf : ∀ line line' : Line, line'.Gains line g →
      Settings.ofLine line' = f (Settings.ofLine line))
    (program : String) (level : Option Text) (m : Machine) :
    outcome program words' level m = launch program level
      ((on (opening ⟨program, Settings.manual⟩ words) m).1.map (Opening.map f), m) := by
  rw [outcome_eq, opening_of_adds h hg rfl hf, on_map]

theorem reshown_of_adds (h : Adds Settings.switches g words words') (hg : IsFlag g)
    (hf : ∀ line line' : Line, line'.Gains line g →
      Settings.ofLine line' = f (Settings.ofLine line)) (hsaid : m.said = [])
    (hproceed : ∀ s verb rest detailed,
      proceed program (f s) verb rest detailed = proceed program s verb rest detailed)
    (hpresentation : ∀ line, Line.read Settings.switches false words = .ok line →
      presentationOf (f (.ofLine line)) level = (presentationOf (.ofLine line) level).map change ∧
        ∀ p, presentationOf (.ofLine line) level = .ok p →
          (0 < (change p).1.verbosity ↔ 0 < p.1.verbosity)) :
    Reshown change (outcome program words level m) (outcome program words' level m) := by
  rw [outcome_of_adds h hg hf, outcome_eq]
  refine reshown_launch hsaid hproceed fun s verb rest hready => ?_
  obtain ⟨line, hread, rfl⟩ := line_of_opening hready
  exact hpresentation line hread

theorem hushes_of_adds (h : Adds Settings.switches quietly words words') (hsaid : m.said = [])
    (hverbose : ∀ line, Line.read Settings.switches false words = .ok line →
      line.count "verbose" = 0) :
    Hushes (outcome program words level m) (outcome program words' level m) := by
  refine Reshown.hushes (reshown_of_adds h isFlag_quietly (fun _ _ => ofLine_hushed) hsaid
    (fun _ _ _ _ => rfl) fun line hread => ?_)
  have hquiet : (Settings.ofLine line).verbose = 0 := hverbose line hread
  refine ⟨presentationOf_hushed hquiet level, fun p hp => ?_⟩
  have hnever : ¬ 0 < (Shown.hushed p).1.verbosity := Int.not_lt.mpr (by decide : (-1 : Int) ≤ 0)
  exact iff_of_false hnever (not_detailed hquiet hp)

theorem reshown_bleached (h : Adds Settings.switches colorlessly words words')
    (hsaid : m.said = []) (program : String) (level : Option Text) :
    Reshown Shown.bleached (outcome program words level m) (outcome program words' level m) :=
  reshown_of_adds h isFlag_colorlessly (fun _ _ => ofLine_bleached) hsaid (fun _ _ _ _ => rfl)
    fun line _ => ⟨presentationOf_bleached (.ofLine line) level, fun _ _ => Iff.rfl⟩

theorem exists_reshown_logging (h : ∃ asked, Log.environmentLevel level = .ok asked)
    (h' : ∃ asked, Log.environmentLevel level' = .ok asked) (hsaid : m.said = []) :
    ∃ threshold, Reshown (Shown.logging threshold) (outcome program words level m)
      (outcome program words level' m) := by
  obtain ⟨threshold, hthreshold⟩ := presentationOf_logging h h'
  rw [outcome_eq, outcome_eq]
  generalize (on (opening ⟨program, Settings.manual⟩ words) m).1 = o
  have hsame : o.map (Opening.map id) = o := by rcases o with _ | _ | _ <;> rfl
  have hlaunch : Reshown (Shown.logging threshold) (launch program level (o, m))
      (launch program level' (o.map (Opening.map id), m)) :=
    reshown_launch hsaid (fun _ _ _ _ => rfl) fun s _ _ _ => ⟨hthreshold s, fun _ _ => Iff.rfl⟩
  rw [hsame] at hlaunch
  exact ⟨threshold, hlaunch⟩

/--
How a run is shown does not change what it does.  Asking for data only leaves out what is
told of how things stand, and nothing else; asking for no colours changes neither the
status nor the files, and asking for another log not even the output.
-/
theorem presentation_changes_no_result (program : String) (words : List String)
    (store : Store) (here : Location) (fresh : List FreshName) :
    (∀ words' level, Adds Settings.switches quietly words words' →
      (∀ line, Line.read Settings.switches false words = .ok line → line.count "verbose" = 0) →
      Hushes (outcome program words level (.start store here fresh))
        (outcome program words' level (.start store here fresh))) ∧
    (∀ words' level, Adds Settings.switches colorlessly words words' →
      (outcome program words' level (.start store here fresh)).1.code =
          (outcome program words level (.start store here fresh)).1.code ∧
        (outcome program words' level (.start store here fresh)).2.store =
          (outcome program words level (.start store here fresh)).2.store) ∧
    ∀ level level', (∃ asked, Log.environmentLevel level = .ok asked) →
      (∃ asked, Log.environmentLevel level' = .ok asked) →
      (outcome program words level' (.start store here fresh)).1 =
          (outcome program words level (.start store here fresh)).1 ∧
        (outcome program words level' (.start store here fresh)).2.store =
          (outcome program words level (.start store here fresh)).2.store ∧
        (outcome program words level' (.start store here fresh)).2.output =
          (outcome program words level (.start store here fresh)).2.output := by
  have hsaid : (Machine.start store here fresh).said = [] := rfl
  refine ⟨fun words' level hadds hverbose => hushes_of_adds hadds hsaid hverbose,
    fun words' level hadds => ?_, fun level level' hlevel hlevel' => ?_⟩
  · have hreshown := reshown_bleached hadds hsaid program level
    exact ⟨hreshown.code, hreshown.store⟩
  · obtain ⟨threshold, hreshown⟩ := exists_reshown_logging hlevel hlevel' hsaid
    exact ⟨hreshown.relogged.1, hreshown.store, hreshown.relogged.2⟩

end Results

section Bundled

attribute [local instance] Platform.bundled

/-- A dry run that tells of a change. -/
def dryWords : List String :=
  ["embed", "page.html", "-m", "manifest"]

def dryMachine : Machine :=
  .start ⟨[(["page.html"], .file (Charset.Codec.utf8.body "<head></head>".toList)),
    (["manifest"], .file [1])]⟩ [] [.sample]

theorem presentation_changes_no_result_dryRun :
    Adds Settings.switches quietly dryWords ("-q" :: dryWords) ∧
      Adds Settings.switches colorlessly dryWords ("--no-color" :: dryWords) ∧
      (outcome "provmark" dryWords none dryMachine).2.output ≠ [] ∧
      (outcome "provmark" ("-q" :: dryWords) none dryMachine).2.output = [] ∧
      Hushes (outcome "provmark" dryWords none dryMachine)
        (outcome "provmark" ("-q" :: dryWords) none dryMachine) ∧
      (outcome "provmark" ("--no-color" :: dryWords) none dryMachine).1.code =
        (outcome "provmark" dryWords none dryMachine).1.code ∧
      (outcome "provmark" dryWords (some "debug".toList) dryMachine).1 =
        (outcome "provmark" dryWords none dryMachine).1 := by
  have hword : IsSwitchWord "-q" := ⟨by decide, by decide⟩
  have hquiet : Adds Settings.switches quietly dryWords ("-q" :: dryWords) :=
    .here dryWords hword (eq_ok_of_toOption (by decide +kernel))
  have hword' : IsSwitchWord "--no-color" := ⟨by decide, by decide⟩
  have hcolor : Adds Settings.switches colorlessly dryWords ("--no-color" :: dryWords) :=
    .here dryWords hword' (eq_ok_of_toOption (by decide +kernel))
  have hread : Line.read Settings.switches false dryWords = .ok ⟨[], dryWords⟩ :=
    eq_ok_of_toOption (by decide +kernel)
  have hverbose : ∀ line, Line.read Settings.switches false dryWords = .ok line →
      line.count "verbose" = 0 := by
    intro line hline
    rw [hread] at hline
    cases hline
    rfl
  have hlevel : Log.environmentLevel (some "debug".toList) = .ok (some 10) :=
    eq_ok_of_toOption (by decide +kernel)
  obtain ⟨hhushes, hbleached, hlogged⟩ := presentation_changes_no_result "provmark" dryWords
    dryMachine.store [] [.sample]
  exact ⟨hquiet, hcolor, by decide +kernel, by decide +kernel, hhushes _ none hquiet hverbose,
    (hbleached _ none hcolor).1, (hlogged none _ ⟨none, rfl⟩ ⟨_, hlevel⟩).1⟩

end Bundled

end Command

end PageManifest
