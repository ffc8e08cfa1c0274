import PageManifest.Proofs.Acts

/-! # Checks of a command line

A command line is checked before its command does anything.  The checks look at
files, but leave them alone.  A switch without a value gives them nothing to check,
so a command line that asks for a change to be applied is checked like one that
does not.
-/

namespace PageManifest.Command

variable {call : Call} {line line' : Line}

/-! ## What checks do to files -/

theorem run_status (path : Path) (m : Machine) : (Host.status path : StateM Machine _) m =
    (if path.hasNul then .error .nul
      else (m.store.status m.here path).mapError fun cause =>
        .os (OsFault.on cause path.toString), m) := by
  change Machine.asking [path] _ _ m = _
  unfold Machine.asking
  rw [List.any_cons, List.any_nil, Bool.or_false]
  cases path.hasNul with
  | true => rfl
  | false =>
      dsimp only
      cases m.store.status m.here path <;> rfl

theorem careful_status (path : Path) :
    Careful (ExceptT.lift (Host.status path) :
      Act (StateM Machine) (Except PathFault PageManifest.Status)) := by
  refine ⟨⟨fun m => ?_, fun m m' left => ?_⟩, .lift _⟩
  · change m.Left ((Host.status path : StateM Machine _) m).2 m.store
    rw [run_status]
    exact .refl m
  · change Except.ok ((Host.status path : StateM Machine _) m').1 =
      Except.ok ((Host.status path : StateM Machine _) m).1
    rw [run_status, run_status, left.store, left.here]

theorem careful_checkValue (call : Call) (label : String) (takes : Takes) (value : String) :
    Careful (checkValue call label takes value : Act (StateM Machine) Unit) := by
  unfold checkValue
  cases takes with
  | nothing => exact .pure _
  | text => exact .pure _
  | choice names =>
      dsimp only
      split
      · exact .throw trivial
      · exact .pure _
  | file =>
      dsimp only
      split
      · refine .bind (careful_status _) fun found => ?_
        split
        · exact .throw trivial
        · exact .pure _
        · exact .pure _
        · exact .throw trivial
      · exact .pure _

theorem careful_checkGiven (call : Call) (line : Line) :
    Careful (checkGiven call line : Act (StateM Machine) Unit) :=
  .forM fun s _ => careful_checkValue call s.label s.takes _

theorem careful_checkOperand (call : Call) (line : Line) :
    Careful (checkOperand call line : Act (StateM Machine) Unit) := by
  unfold checkOperand
  split
  · exact .pure _
  · split
    · exact .throw trivial
    · exact careful_checkValue ..

theorem careful_checkRequired (call : Call) (line : Line) :
    Careful (checkRequired call line : Act (StateM Machine) Unit) := by
  refine .forM fun s _ => ?_
  split
  · exact .throw trivial
  · exact .pure _

theorem careful_checkExtra (call : Call) (line : Line) :
    Careful (checkExtra call line : Act (StateM Machine) Unit) := by
  unfold checkExtra
  split
  · exact .pure _
  · exact .throw trivial

/-- All checks of a command line. -/
def checking (call : Call) (line : Line) : Act (StateM Machine) Unit := do
  checkGiven call line
  checkOperand call line
  checkRequired call line
  checkExtra call line

theorem careful_checking (call : Call) (line : Line) : Careful (checking call line) :=
  .bind (careful_checkGiven call line) fun _ => .bind (careful_checkOperand call line) fun _ =>
    .bind (careful_checkRequired call line) fun _ => careful_checkExtra call line

/-- The document that a command line names. -/
def Line.document (line : Line) : Path :=
  Path.ofString (line.operands.head?.getD "")

theorem runVerb_eq [Platform] {words : List String} (verb : Verb) (c : Config) (detailed : Bool)
    (hread : Line.read call.manual.switches true words = .ok line) :
    (runVerb verb call c detailed words : Act (StateM Machine) PageManifest.Command.Status) =
      if line.has "help" then sayPage call >>= fun _ => pure .success
      else checking call line >>= fun _ => perform c detailed (.ofLine verb line) := by
  unfold runVerb readLine
  rw [hread, pure_bind]
  simp only [checking, bind_assoc]

/-! ## Going through lists -/

section Lists

variable {α : Type}

/-- Keeping some elements and dropping repeated ones can be done in either order. -/
theorem filter_eraseDups [DecidableEq α] (p : α → Bool) (l : List α) :
    l.eraseDups.filter p = (l.filter p).eraseDups := by
  match l with
  | [] => rfl
  | a :: l =>
      rw [List.eraseDups_cons, List.filter_cons, List.filter_cons,
        filter_eraseDups p (l.filter fun b => !b == a), List.filter_filter]
      cases hp : p a with
      | true =>
          simp only [if_true, List.eraseDups_cons, List.filter_filter, Bool.and_comm]
      | false =>
          have hkept : ∀ b ∈ l, (p b && !b == a) = p b := by
            intro b _
            by_cases hb : b = a
            · rw [hb, hp]
              rfl
            · simp [hb]
          rw [List.filter_congr hkept]
          rfl
termination_by l.length
decreasing_by
  exact Nat.lt_succ_of_le (List.length_filter_le _ l)

theorem forM_cons_eq (f : α → Act (StateM Machine) Unit) (a : α) (l : List α) :
    (a :: l).forM f = f a >>= fun _ => l.forM f := rfl

theorem forM_filter {f : α → Act (StateM Machine) Unit} {p : α → Bool} {l : List α}
    (h : ∀ a ∈ l, p a = false → f a = pure ()) : (l.filter p).forM f = l.forM f := by
  induction l with
  | nil => rfl
  | cons a l ih =>
      have hrest := ih fun b hb => h b (List.mem_cons_of_mem a hb)
      cases hp : p a with
      | true => rw [List.filter_cons_of_pos hp, forM_cons_eq, forM_cons_eq, hrest]
      | false =>
          rw [List.filter_cons_of_neg (by simp [hp]), forM_cons_eq, hrest,
            h a (List.mem_cons_self ..) hp, pure_bind]

theorem forM_congr {f g : α → Act (StateM Machine) Unit} {l : List α}
    (h : ∀ a ∈ l, f a = g a) : l.forM f = l.forM g := by
  induction l with
  | nil => rfl
  | cons a l ih =>
      rw [forM_cons_eq, forM_cons_eq, h a (List.mem_cons_self ..),
        ih fun b hb => h b (List.mem_cons_of_mem a hb)]

end Lists

/-! ## Command lines that ask for a change to be applied -/

def applySwitch : Switch :=
  flag "apply" "Write changes (default is a dry run that exits 2 when changes would be made)."

def applying : Given :=
  ⟨applySwitch, ""⟩

/-- A command line that asks for the change to be applied that another one only foretells. -/
structure Line.Applies (line' line : Line) : Prop where
  operands : line'.operands = line.operands
  given : line'.given.filter (· ≠ applying) = line.given
  asks : applying ∈ line'.given
  dry : line.has "apply" = false

namespace Line.Applies

theorem mem_given (h : line'.Applies line) {g : Given} :
    g ∈ line.given ↔ g ∈ line'.given ∧ g ≠ applying := by
  rw [← h.given, List.mem_filter, decide_eq_true_iff]

/-- Only the switch that is added has the name of that switch. -/
theorem name_ne (h : line'.Applies line) {g : Given} (hg : g ∈ line.given) :
    g.switch.name ≠ "apply" := by
  intro hname
  have hhas : line.has "apply" = true :=
    List.any_eq_true.mpr ⟨g, hg, decide_eq_true hname⟩
  rw [h.dry] at hhas
  cases hhas

theorem has_apply (h : line'.Applies line) : line'.has "apply" = true :=
  List.any_eq_true.mpr ⟨applying, h.asks, rfl⟩

theorem has_eq (h : line'.Applies line) {name : String} (hname : name ≠ "apply") :
    line'.has name = line.has name := by
  rw [Bool.eq_iff_iff, Line.has, Line.has, List.any_eq_true, List.any_eq_true]
  constructor
  · rintro ⟨g, hg, hgiven⟩
    refine ⟨g, h.mem_given.mpr ⟨hg, ?_⟩, hgiven⟩
    rintro rfl
    exact hname (decide_eq_true_iff.mp hgiven).symm
  · rintro ⟨g, hg, hgiven⟩
    exact ⟨g, (h.mem_given.mp hg).1, hgiven⟩

theorem value?_eq (h : line'.Applies line) {name : String} (hname : name ≠ "apply") :
    line'.value? name = line.value? name := by
  have hsame : ∀ g : Given, (g ≠ applying ∧ g.switch.name = name) ↔ g.switch.name = name := by
    intro g
    refine and_iff_right_of_imp ?_
    rintro hgiven rfl
    exact hname hgiven.symm
  rw [Line.value?, Line.value?, ← h.given, ← List.filter_reverse, List.find?_filter]
  simp only [decide_eq_true_iff, hsame]

theorem distinct_eq (h : line'.Applies line) :
    line'.distinct.filter (· ≠ applySwitch) = line.distinct := by
  have hsame : ∀ g ∈ line'.given,
      ((fun s => decide (s ≠ applySwitch)) ∘ Given.switch) g = decide (g ≠ applying) := by
    intro g hg
    rw [Function.comp_apply, decide_eq_decide]
    constructor
    · rintro hswitch rfl
      exact hswitch rfl
    · intro hother hswitch
      exact h.name_ne (h.mem_given.mpr ⟨hg, hother⟩) (congrArg Switch.name hswitch)
  rw [Line.distinct, Line.distinct, filter_eraseDups, List.filter_map, List.filter_congr hsame,
    h.given]

theorem checkGiven_eq (h : line'.Applies line) (call : Call) :
    (checkGiven call line' : Act (StateM Machine) Unit) = checkGiven call line := by
  have hvalues : ∀ s ∈ line.distinct,
      (checkValue call s.label s.takes ((line.value? s.name).getD "") :
        Act (StateM Machine) Unit) =
          checkValue call s.label s.takes ((line'.value? s.name).getD "") := by
    intro s hs
    obtain ⟨g, hg, rfl⟩ := List.mem_map.mp (List.mem_eraseDups.mp hs)
    rw [h.value?_eq (h.name_ne hg)]
  have hidle : ∀ s ∈ line'.distinct, decide (s ≠ applySwitch) = false →
      (checkValue call s.label s.takes ((line'.value? s.name).getD "") :
        Act (StateM Machine) Unit) = pure () := by
    intro s _ hs
    rw [decide_eq_false_iff_not, Classical.not_not] at hs
    rw [hs]
    rfl
  rw [checkGiven, checkGiven, forM_congr hvalues, ← h.distinct_eq, forM_filter hidle]

theorem checkRequired_eq (h : line'.Applies line) {call : Call}
    (hneeded : ∀ s ∈ call.manual.switches, s.required = true → s.name ≠ "apply") :
    (checkRequired call line' : Act (StateM Machine) Unit) = checkRequired call line := by
  refine forM_congr fun s hs => ?_
  cases hrequired : s.required with
  | false => rfl
  | true => rw [h.has_eq (hneeded s hs hrequired)]

theorem checking_eq (h : line'.Applies line) {call : Call}
    (hneeded : ∀ s ∈ call.manual.switches, s.required = true → s.name ≠ "apply") :
    checking call line' = checking call line := by
  rw [checking, h.checkGiven_eq, h.checkRequired_eq hneeded]
  unfold checkOperand checkExtra
  rw [h.operands]
  rfl

end Line.Applies

theorem required_ne_apply (verb : Verb) (letter : Option Char) :
    ∀ s ∈ (verb.manual letter).switches, s.required = true → s.name ≠ "apply" := by
  have hown : ∀ s ∈ verb.switches, s.required = true → s.name ≠ "apply" := by
    cases verb <;> decide
  intro s hs hrequired
  rcases List.mem_append.mp hs with hs | hs
  · exact hown s hs hrequired
  · rw [List.mem_singleton.mp hs] at hrequired
    cases hrequired

theorem applies_prepend (h : line.has "apply" = false) :
    (line.prepend [applying]).Applies line := by
  refine ⟨rfl, ?_, List.mem_cons_self .., h⟩
  have hkept : line.given.filter (· ≠ applying) = line.given := by
    refine List.filter_eq_self.mpr fun g hg => decide_eq_true ?_
    rintro rfl
    have hhas : line.has "apply" = true := List.any_eq_true.mpr ⟨applying, hg, rfl⟩
    rw [h] at hhas
    cases hhas
  exact hkept

theorem read_apply_cons {switches : List Switch} {words : List String}
    (hfind : switches.find? (·.long = "--apply") = some applySwitch) (mixed : Bool) :
    Line.read switches mixed ("--apply" :: words) =
      (Line.read switches mixed words).map (Line.prepend [applying]) := by
  have hswitches : readSwitches switches "--apply".toList words.head? =
      .ok ([applying], false) := by
    have hsplit : splitValue "--apply".toList = ("--apply".toList, none) := by decide
    rw [readSwitches, hsplit]
    simp only [String.ofList_toList, hfind]
    rfl
  rw [Line.read, if_neg (by decide), if_pos (by decide), hswitches]

end PageManifest.Command
