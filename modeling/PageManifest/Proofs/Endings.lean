import PageManifest.Platform.Bundled
import PageManifest.Proofs.Presentation
import PageManifest.Proofs.Unreported

/-! # Runs that end with a status

A command line that is accepted, with a configuration that is accepted, comes to a request.
The run ends with a status unless the request trips over something of which nothing is
reported, or the environment asks for a level of the log that cannot be used.
-/

namespace PageManifest

open Run

/-! ## Paths of a command line -/

namespace Path

theorem isName_nil : isName [] = false :=
  rfl

/-- Only the empty names in front are left out of a path that is read without its slashes. -/
theorem filter_splitAll_dropWhile (t : Text) :
    (splitAll '/' (t.dropWhile (· = '/'))).filter isName = (splitAll '/' t).filter isName := by
  induction t with
  | nil => rfl
  | cons c t ih =>
      by_cases hc : c = '/'
      · rw [List.dropWhile_cons_of_pos (by simpa using hc), ih, splitAll, if_pos hc,
          List.filter_cons_of_neg (by simp [isName_nil])]
      · rw [List.dropWhile_cons_of_neg (by simpa using hc)]

theorem hasNul_ofText_of_verbatim {t : Text} (h : (verbatim t).hasNul = false) :
    (ofText t).hasNul = false := by
  rw [hasNul, List.any_eq_false] at h ⊢
  intro name hname
  refine h name ?_
  rw [ofText, ← filter_splitAll_dropWhile] at hname
  obtain ⟨piece, hpiece, rfl⟩ := List.mem_map.mp hname
  exact List.mem_map.mpr ⟨piece, (List.mem_filter.mp hpiece).1, rfl⟩

end Path

namespace Command

variable {m m' : Machine} {call : Call} {line : Line} {words : List String} {verb : Verb}

/-- A value that passes for a file names a path without a NUL. -/
theorem hasNul_of_checkValue {label value : String}
    (h : (on (checkValue call label .file value) m).1 = .ok ()) :
    (Path.ofString value).hasNul = false := by
  by_cases hempty : value = ""
  · rw [hempty]
    decide
  · refine Path.hasNul_ofText_of_verbatim ?_
    cases hnul : (Path.verbatim value.toList).hasNul with
    | false => rfl
    | true =>
        have hstatus : on (ExceptT.lift (Host.status (Path.verbatim value.toList)) :
            Act (StateM Machine) _) m = (.ok (.error .nul), m) := by
          change (Except.ok ((Host.status (Path.verbatim value.toList) : StateM Machine _) m).1,
            ((Host.status (Path.verbatim value.toList) : StateM Machine _) m).2) = _
          rw [run_status, hnul]
          rfl
        unfold checkValue at h
        simp only [ne_eq, hempty, not_false_eq_true, if_true] at h
        rw [on_bind_of_ok hstatus] at h
        cases h

theorem exists_of_forM {α : Type} {l : List α} {f : α → Act (StateM Machine) Unit}
    (h : (on (l.forM f) m).1 = .ok ()) : ∀ a ∈ l, ∃ m', (on (f a) m').1 = .ok () := by
  induction l generalizing m with
  | nil => simp
  | cons b l ih =>
      rw [forM_cons_eq] at h
      obtain ⟨u, m₁, hfirst, hrest⟩ := exists_of_fst_on_bind h
      rintro a ha
      rcases List.mem_cons.mp ha with rfl | ha
      · exact ⟨m, congrArg Prod.fst hfirst⟩
      · exact ih hrest a ha

/-- The values of switches that take files name paths without a NUL. -/
theorem hasNul_of_checkGiven {name value : String}
    (hread : Line.read call.manual.switches true words = .ok line)
    (hfile : ∀ s ∈ call.manual.switches, s.name = name → s.takes = .file)
    (h : (on (checkGiven call line) m).1 = .ok ()) (hvalue : line.value? name = some value) :
    (Path.ofString value).hasNul = false := by
  obtain ⟨g, hfound, rfl⟩ := Option.map_eq_some_iff.mp hvalue
  have hname : g.switch.name = name := by simpa using List.find?_some hfound
  have hgiven : g ∈ line.given := List.mem_reverse.mp (List.mem_of_find?_eq_some hfound)
  have hdistinct : g.switch ∈ line.distinct :=
    List.mem_eraseDups.mpr (List.mem_map.mpr ⟨g, hgiven, rfl⟩)
  obtain ⟨m', hchecked⟩ := exists_of_forM h g.switch hdistinct
  rw [hname, hvalue, hfile _ (switch_mem_of_read hread g hgiven) hname] at hchecked
  exact hasNul_of_checkValue hchecked

theorem hasNul_of_checkOperand {label : String} (hoperand : call.manual.operand = some label)
    (h : (on (checkOperand call line) m).1 = .ok ()) : line.document.hasNul = false := by
  unfold checkOperand at h
  rw [hoperand] at h
  rw [Line.document]
  cases hoperands : line.operands with
  | nil =>
      rw [hoperands] at h
      cases h
  | cons value rest =>
      rw [hoperands] at h
      exact hasNul_of_checkValue h

/-- No path of a request that passed its checks has a NUL in it. -/
theorem hasNul_of_checking (hcall : call.manual = verb.manual (some 'h'))
    (hread : Line.read call.manual.switches true words = .ok line)
    (h : (on (checking call line) m).1 = .ok ()) :
    ∀ path ∈ (Request.ofLine verb line).paths, path.hasNul = false := by
  obtain ⟨_, m₁, hgiven, hrest⟩ := exists_of_fst_on_bind h
  obtain ⟨_, m₂, hoperand, _⟩ := exists_of_fst_on_bind hrest
  have hdocument : ∀ label, verb.operand = some label → line.document.hasNul = false :=
    fun label hlabel => hasNul_of_checkOperand (by rw [hcall]; exact hlabel)
      (congrArg Prod.fst hoperand)
  have hvalue : ∀ name value, (∀ s ∈ (verb.manual (some 'h')).switches, s.name = name →
      s.takes = .file) → line.value? name = some value → (Path.ofString value).hasNul = false :=
    fun name value hfile => hasNul_of_checkGiven hread (by rw [hcall]; exact hfile)
      (congrArg Prod.fst hgiven)
  intro path hpath
  cases verb with
  | config => cases hpath
  | version => cases hpath
  | read =>
      rcases List.mem_cons.mp hpath with rfl | hpath
      · exact hdocument "PATH" rfl
      · obtain ⟨value, hgiven, rfl⟩ := Option.map_eq_some_iff.mp (Option.mem_toList.mp hpath)
        exact hvalue "output" value (by decide) hgiven
  | embed =>
      rcases List.mem_cons.mp hpath with rfl | hpath
      · exact hdocument "PATH" rfl
      · rw [List.mem_singleton.mp hpath]
        cases hgiven : line.value? "manifest" with
        | none => decide
        | some value => exact hvalue "manifest" value (by decide) hgiven
  | strip =>
      rw [List.mem_singleton.mp hpath]
      exact hdocument "PATH" rfl
  | regions =>
      rw [List.mem_singleton.mp hpath]
      exact hdocument "PATH" rfl

/-! ## Stops that are no complaints -/

/-- A stop that is no complaint about a command line. -/
def Stop.Answered (stop : Stop) : Prop :=
  ∀ call fault, stop ≠ .line call fault

theorem answered_reporting {α : Type} (document : Option Path)
    (operation : Run (StateM Machine) α) :
    StopsFor Stop.Answered (reporting document operation) :=
  .reporting (ofFailure_ne_line document) operation

theorem answered_error {α : Type} (e : Error) :
    StopsFor Stop.Answered (throw (.error e) : Act (StateM Machine) α) :=
  .throw fun _ _ h => by cases h

theorem answered_act {α : Type} (x : LastStep α) (apply needed : Bool) :
    StopsFor Stop.Answered (x.act apply needed) := by
  unfold LastStep.act
  split
  · exact .bind (.lift _) fun _ => .pure _
  · split
    · exact .bind (.lift _) fun _ => .pure _
    · exact .bind (answered_reporting _ _) fun _ => .bind (.lift _) fun _ => .pure _

theorem answered_preview (document : Path) (diff : Bool) (before after : Text) :
    StopsFor Stop.Answered (preview document diff before after) := by
  cases diff with
  | false => exact .pure _
  | true => exact .lift _

theorem answered_backendFor (c : Config) (document : Path) :
    StopsFor Stop.Answered (backendFor c document : Act (StateM Machine) Backend) :=
  .bind (answered_reporting _ _) fun _ => .pure _

theorem answered_payloadFrom (manifest : Path) :
    StopsFor Stop.Answered (payloadFrom manifest) := by
  refine .bind (answered_reporting _ _) fun payload => ?_
  unfold unlessEmpty
  split
  · exact answered_error _
  · exact .pure _

theorem exists_ended_iff (shown : Text → Text) {r : Except Stop Status}
    (h : ∀ stop, r = .error stop → stop.Answered) :
    (∃ status complaint, Ending.ofResult shown r = .ended status complaint) ↔
      ¬ Refuses Stop.Unreported r := by
  cases r with
  | ok status => simp [Ending.ofResult]
  | error stop =>
      cases stop with
      | line call fault => exact absurd rfl (h _ rfl call fault)
      | error e => simp [Ending.ofResult, Ending.ofStop, Stop.Unreported]
      | failure failure => simp [Ending.ofResult, Ending.ofStop, Stop.Unreported]

theorem exists_failed_iff (shown : Text → Text) (r : Except Stop Status) :
    (∃ failure, Ending.ofResult shown r = .failed failure) ↔ Refuses Stop.Unreported r := by
  rcases r with stop | status
  · cases stop <;> simp [Ending.ofResult, Ending.ofStop, Stop.Unreported]
  · simp [Ending.ofResult]

theorem error_cases_of_presentationOf {s : Settings} {level : Option Text} {stop : Stop}
    (h : presentationOf s level = .error stop) :
    (∃ e, stop = .error e) ∨ ∃ failure, stop = .failure failure := by
  unfold presentationOf at h
  split at h
  · exact .inl ⟨_, (Except.error.inj h).symm⟩
  · split at h
    · exact .inr ⟨_, (Except.error.inj h).symm⟩
    · cases h

section Runs

variable [Platform]

/-! ## Requests behind careful steps -/

/-- What a request trips over is a matter of the files on a machine. -/
theorem escapes_iff_of_left {c : Config} (left : m.Left m' m.store) (request : Request) :
    Escapes c m' request ↔ Escapes c m request := by
  cases request with
  | config => rfl
  | version json => rfl
  | read document output =>
      have hread : (on ((backendOf c document).readAt document) m').1 =
          (on ((backendOf c document).readAt document) m).1 :=
        (Backend.quiet_readAt _ document).same m m' left
      simp only [Escapes, left.undecoded_iff, Backend.LongReference, Backend.NulReference,
        left.document_iff, Backend.nulInTemporary_iff_of_left left, hread]
  | embed document manifest apply diff =>
      have hwould : ∀ payload, (on ((backendOf c document).wouldChange document payload) m').1 =
          (on ((backendOf c document).wouldChange document payload) m).1 := fun payload =>
        (Backend.quiet_wouldChange _ document payload).same m m' left
      simp only [Escapes, left.undecoded_iff, left.holds_iff, left.unsaved_iff, hwould]
  | strip document apply diff =>
      have hpresent : (on ((backendOf c document).hasManifest document) m').1 =
          (on ((backendOf c document).hasManifest document) m).1 :=
        (Backend.quiet_hasManifest _ document).same m m' left
      simp only [Escapes, left.undecoded_iff, Backend.LongReference, left.document_iff,
        Backend.nulInTemporary_iff_of_left left, hpresent]
  | regions document json digest =>
      simp only [Escapes, left.undecoded_iff, Backend.LongReference, Backend.Unmeasured, Overrun,
        left.document_iff]

/-! ## Stops of commands -/

theorem answered_documentText (c : Config) (document : Path) :
    StopsFor Stop.Answered (documentText c document : Act (StateM Machine) Text) :=
  answered_reporting _ _

theorem answered_previewStripped (c : Config) (document : Path) (diff : Bool) :
    StopsFor Stop.Answered (previewStripped c document diff) := by
  cases diff with
  | false => exact .pure _
  | true =>
      exact .bind (answered_documentText c document) fun before =>
        answered_preview document true before _

theorem answered_read (c : Config) (document : Path) (output : Option Path) :
    StopsFor Stop.Answered (read c document output : Act (StateM Machine) Status) := by
  refine .bind (answered_backendFor c document) fun b => .bind (answered_reporting _ _) fun _ => ?_
  cases output with
  | none => exact .bind (.lift _) fun _ => .pure _
  | some o =>
      exact .bind (answered_reporting _ _) fun _ => .bind (.lift _) fun _ => .pure _

theorem answered_regions (c : Config) (document : Path) (json digest : Bool) :
    StopsFor Stop.Answered (regions c document json digest : Act (StateM Machine) Status) := by
  have hsum : ∀ found, StopsFor Stop.Answered (sumOf c document digest found) := by
    intro found
    unfold sumOf
    split
    · exact answered_error _
    · split
      · exact .bind (.bind (answered_documentText c document) fun _ => answered_reporting _ _)
          fun _ => .pure _
      · exact .pure _
  rw [regions_eq]
  refine .bind (answered_backendFor c document) fun b => .bind (answered_reporting _ _)
    fun found => .bind (hsum found) fun sum => ?_
  cases json with
  | true => exact .bind (.lift _) fun _ => .pure _
  | false =>
      exact .bind (.forM fun _ _ => .lift _) fun _ =>
        .bind (.forM fun _ _ => .lift _) fun _ => .pure _

/-- Behind its checks no command complains about the command line. -/
theorem answered_perform (c : Config) (detailed : Bool) (request : Request) :
    StopsFor Stop.Answered (perform c detailed request : Act (StateM Machine) Status) := by
  cases request with
  | config => exact .bind (.lift _) fun _ => .pure _
  | version json => exact fun m stop h => (never_tellVersion detailed json m stop h).elim
  | read document output => exact answered_read c document output
  | embed document manifest apply diff =>
      change StopsFor _ (embed c document manifest apply diff)
      rw [embed_eq]
      exact .bind (.bind (answered_backendFor c document) fun b =>
        .bind (answered_payloadFrom manifest) fun payload =>
          .bind (answered_documentText c document) fun before => .bind (answered_reporting _ _)
            fun after => .bind (answered_reporting _ _) fun _ =>
              .bind (answered_preview document diff before after) fun _ => .pure _)
        fun found => answered_act _ _ _
  | strip document apply diff =>
      change StopsFor _ (strip c document apply diff)
      rw [strip_eq]
      exact .bind (.bind (answered_backendFor c document) fun b => .bind (answered_reporting _ _)
        fun _ => .bind (answered_previewStripped c document _) fun _ => .pure _)
        fun present => answered_act _ _ _
  | regions document json digest => exact answered_regions c document json digest

/-! ## Runs -/

/--
A command line that is accepted on a machine, by its settings, the words of its command and
what is checked of these, with the configuration that its settings make.
-/
structure Accepted (program : String) (words : List String) (m : Machine) (s : Settings)
    (verb : Verb) (line : Line) (c : Config) : Prop where
  read : ∃ rest, (on (opening ⟨program, Settings.manual⟩ words) m).1 =
      .ok (.ready s (some verb) rest) ∧
    Line.read (verb.manual (some 'h')).switches true rest = .ok line
  checked : line.has "help" = true ∨ (on (checking
    ⟨program ++ " " ++ verb.name, verb.manual (some 'h')⟩ line) m).1 = .ok ()
  configured : (on (Config.load s.config none true s.strategy s.encoding) m).1 = .ok c

/-- Behind its settings an accepted run performs its request, or shows the page of its command. -/
theorem exists_on_proceed {program : String} {s : Settings} {c : Config} {rest : List String}
    (hread : Line.read (verb.manual (some 'h')).switches true rest = .ok line)
    (hchecked : line.has "help" = true ∨ (on (checking
      ⟨program ++ " " ++ verb.name, verb.manual (some 'h')⟩ line) m).1 = .ok ())
    (hconfigured : (on (Config.load s.config none true s.strategy s.encoding) m).1 = .ok c)
    (detailed : Bool) :
    ∃ m', m.Left m' m.store ∧ (on (proceed program s (some verb) rest detailed) m).1 =
      if line.has "help" then .ok .success
      else (on (perform c detailed (.ofLine verb line)) m').1 := by
  have hquiet : Quiet (configFor s : Act (StateM Machine) Config) :=
    quiet_reporting (Config.quiet_load ..) none
  have left : m.Left (on (configFor s) m).2 m.store := hquiet.left m
  have hconfig : on (configFor s) m = (.ok c, (on (configFor s) m).2) :=
    Prod.ext (on_reporting_eq_ok_iff.mpr hconfigured) rfl
  have hproceed : on (proceed program s (some verb) rest detailed) m =
      on (runVerb verb ⟨program ++ " " ++ verb.name, verb.manual (some 'h')⟩ c detailed rest)
        (on (configFor s) m).2 := on_bind_of_ok hconfig
  generalize (on (configFor s) m).2 = m₁ at hproceed left
  rw [hproceed, runVerb_eq verb c detailed hread]
  cases hhelp : line.has "help" with
  | true => exact ⟨m, .refl m, rfl⟩
  | false =>
      have hpassed := hchecked.resolve_left (by simp [hhelp])
      obtain ⟨r, m₂, hchecking, left'⟩ := (careful_checking
        ⟨program ++ " " ++ verb.name, verb.manual (some 'h')⟩ line).exists_on m₁
      have hsame := (careful_checking ⟨program ++ " " ++ verb.name, verb.manual (some 'h')⟩
        line).quiet.same m m₁ left
      obtain rfl : r = .ok () :=
        (congrArg Prod.fst hchecking).symm.trans (hsame.trans hpassed)
      rw [left.store] at left'
      refine ⟨m₂, left.trans left', ?_⟩
      rw [if_neg Bool.false_ne_true, if_neg Bool.false_ne_true, on_bind_of_ok hchecking]

/-- A run that is told of in the end. -/
def Answers (s : Settings) (level : Option Text) (m : Machine) (verb : Verb) (line : Line)
    (c : Config) : Prop :=
  (∃ e, presentationOf s level = .error (.error e)) ∨
    (∃ p, presentationOf s level = .ok p) ∧
      (line.has "help" = true ∨ ¬ Escapes c m (.ofLine verb line))

/--
An accepted run ends with a status exactly if it is told of, and else it just fails.  It is
told of unless the level of the log is of no use, or its request trips over something of
which nothing is reported.
-/
theorem ends_with_status_iff {program : String} {s : Settings} {c : Config}
    (h : Accepted program words m s verb line c) (level : Option Text) :
    ((∃ status complaint, ((run program words level : StateM Machine Ending).run m).1 =
        .ended status complaint) ↔ Answers s level m verb line c) ∧
      ((∃ failure, ((run program words level : StateM Machine Ending).run m).1 =
        .failed failure) ↔ ¬ Answers s level m verb line c) := by
  obtain ⟨rest, hready, hread⟩ := h.read
  have hopening : on (opening ⟨program, Settings.manual⟩ words) m =
      (.ok (.ready s (some verb) rest), m) := Prod.ext hready (still_opening _ _ m)
  rw [run_eq, hopening, Answers]
  cases hp : presentationOf s level with
  | error stop =>
      obtain ⟨e, rfl⟩ | ⟨failure, rfl⟩ := error_cases_of_presentationOf hp
      · simp [launch, hp, Ending.ofStop]
      · simp [launch, hp, Ending.ofStop]
  | ok p =>
      obtain ⟨m', left, hproceed⟩ :=
        exists_on_proceed hread h.checked h.configured (decide (0 < p.1.verbosity))
      rw [launch_ready hp program m, hproceed]
      cases hhelp : line.has "help" with
      | true => simp [Ending.ofResult]
      | false =>
          have hpaths := hasNul_of_checking rfl hread (h.checked.resolve_left (by simp [hhelp]))
          have hperform := failsFor_perform_iff (m := m')
            (Config.made_of_load h.configured).readable (decide (0 < p.1.verbosity)) hpaths
          rw [escapes_iff_of_left left] at hperform
          rw [if_neg Bool.false_ne_true, exists_ended_iff p.1.shown (answered_perform _ _ _ m'),
            exists_failed_iff]
          change (¬ FailsFor _ _ m' ↔ _) ∧ (FailsFor _ _ m' ↔ _)
          rw [hperform]
          simp

end Runs

section Bundled

attribute [local instance] Platform.bundled

/-- A machine with a page without a manifest. -/
def bareMachine : Machine :=
  .start ⟨[(["page.html"], .file (Charset.Codec.utf8.body "<p></p>".toList))]⟩ [] [.sample]

/-- Settings that ask for an encoding, in front of a command that reads the page. -/
def encodedLine (encoding : String) : Line :=
  ⟨[⟨⟨none, "encoding", .text, false,
    "Text encoding of HTML documents (overrides configuration)."⟩, encoding⟩],
    ["read", "page.html"]⟩

theorem ends_with_status_utf8 :
    Accepted "provmark" ["--encoding", "utf-8", "read", "page.html"] bareMachine
        (.ofLine (encodedLine "utf-8")) .read ⟨[], ["page.html"]⟩ .standard ∧
      ∃ status complaint, ((run "provmark" ["--encoding", "utf-8", "read", "page.html"] none :
        StateM Machine Ending).run bareMachine).1 = .ended status complaint := by
  have accepted : Accepted "provmark" ["--encoding", "utf-8", "read", "page.html"] bareMachine
      (.ofLine (encodedLine "utf-8")) .read ⟨[], ["page.html"]⟩ .standard :=
    { read := ⟨["page.html"], opening_ready (eq_ok_of_toOption (by decide +kernel)) rfl
        (eq_ok_of_toOption (by decide +kernel)) rfl, eq_ok_of_toOption (by decide +kernel)⟩
      checked := .inr (eq_ok_of_toOption (by decide +kernel))
      configured := eq_ok_of_toOption (by decide +kernel) }
  have hpresented : presentationOf (.ofLine (encodedLine "utf-8")) none =
      .ok (⟨true, 0⟩, ⟨50, true⟩) := eq_ok_of_toOption (by decide +kernel)
  have hescapes : ¬ Escapes .standard bareMachine (.ofLine .read ⟨[], ["page.html"]⟩) := by
    rintro ⟨-, ⟨hcoding, -⟩ | ⟨_, _, _, hstrategy, -⟩ | ⟨_, _, _, hstrategy, -⟩ | ⟨-, o, ho, -⟩⟩
    · exact hcoding (Charset.isCoding_codec .utf8)
    · cases hstrategy
    · cases hstrategy
    · cases ho
  exact ⟨accepted, (ends_with_status_iff accepted none).1.mpr
    (.inr ⟨⟨_, hpresented⟩, .inr hescapes⟩)⟩

/-- The name of an encoding is accepted though it codes no texts. -/
theorem ends_without_status_rot13 :
    Accepted "provmark" ["--encoding", "rot13", "read", "page.html"] bareMachine
        (.ofLine (encodedLine "rot13")) .read ⟨[], ["page.html"]⟩
        { Config.standard with encoding := "rot-13" } ∧
      ((run "provmark" ["--encoding", "rot13", "read", "page.html"] none :
        StateM Machine Ending).run bareMachine).1 =
          .failed (.charset (.noTextCoding "rot-13" "decode")) :=
  ⟨{ read := ⟨["page.html"], opening_ready (eq_ok_of_toOption (by decide +kernel)) rfl
      (eq_ok_of_toOption (by decide +kernel)) rfl, eq_ok_of_toOption (by decide +kernel)⟩
     checked := .inr (eq_ok_of_toOption (by decide +kernel))
     configured := eq_ok_of_toOption (by decide +kernel) }, by decide +kernel⟩

end Bundled

end Command

end PageManifest
