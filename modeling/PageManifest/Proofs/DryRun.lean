import PageManifest.Platform.Bundled
import PageManifest.Proofs.Checks
import PageManifest.Proofs.Forecast

/-! # Dry runs

A command that is not asked to apply its change foretells it.  The dry run and the
run that applies the change check and survey the same things on the same machine,
and part only at the last step, which the dry run leaves out.
-/

namespace PageManifest.Command

open Run

variable {m m' : Machine} {shows : Machine → Prop} {c : Config} {document : Path}

/-! ## Two runs side by side -/

/--
How a dry run and the run that applies the change end on one machine: both in the same
way and without a change, or the first one with a change foretold and the second one in an
error or with success, behind which the machine shows something.
-/
inductive Rehearsal (m : Machine) (shows : Machine → Prop) :
    Except Stop Status × Machine → Except Stop Status × Machine → Prop
  | stopped {stop : Stop} {m₁ : Machine} (serious : stop.Serious) (left : m.Left m₁ m.store) :
      Rehearsal m shows (.error stop, m₁) (.error stop, m₁)
  | idle {m₁ m₂ : Machine} (left : m.Left m₁ m.store) (left' : m.Left m₂ m.store) :
      Rehearsal m shows (.ok .success, m₁) (.ok .success, m₂)
  | refused {m₁ m₂ : Machine} (document : Option Path) (failure : Failure)
      (left : m.Left m₁ m.store) :
      Rehearsal m shows (.ok .wouldChange, m₁) (.error (.ofFailure document failure), m₂)
  | applied {m₁ m₂ : Machine} (left : m.Left m₁ m.store) (shown : shows m₂) :
      Rehearsal m shows (.ok .wouldChange, m₁) (.ok .success, m₂)

theorem Rehearsal.behind {x y : Except Stop Status × Machine} (left : m.Left m' m.store)
    (h : Rehearsal m' shows x y) : Rehearsal m shows x y := by
  have hleft : ∀ {m₁}, m'.Left m₁ m'.store → m.Left m₁ m.store := by
    intro m₁ left'
    rw [left.store] at left'
    exact left.trans left'
  cases h with
  | stopped serious left' => exact .stopped serious (hleft left')
  | idle left₁ left₂ => exact .idle (hleft left₁) (hleft left₂)
  | refused document failure left' => exact .refused document failure (hleft left')
  | applied left' shown => exact .applied (hleft left') shown

theorem Rehearsal.mono {shows' : Machine → Prop} {x y : Except Stop Status × Machine}
    (hshows : ∀ m', shows m' → shows' m') (h : Rehearsal m shows x y) :
    Rehearsal m shows' x y := by
  cases h with
  | stopped serious left => exact .stopped serious left
  | idle left left' => exact .idle left left'
  | refused document failure left => exact .refused document failure left
  | applied left shown => exact .applied left (hshows _ shown)

/-- What both runs do first is careful, and how it goes is the same for both. -/
theorem rehearsal_bind {α : Type} {survey : Act (StateM Machine) α}
    {finish finish' : α → Act (StateM Machine) Status} (hcareful : Careful survey)
    (h : ∀ found m₁, (on survey m).1 = .ok found → m.Left m₁ m.store →
      Rehearsal m₁ shows (on (finish found) m₁) (on (finish' found) m₁)) :
    Rehearsal m shows (on (survey >>= finish) m) (on (survey >>= finish') m) := by
  obtain ⟨r, m₁, hsurvey, left⟩ := hcareful.exists_on m
  cases r with
  | error stop =>
      rw [on_bind_of_error hsurvey, on_bind_of_error hsurvey]
      exact .stopped (hcareful.serious m stop (congrArg Prod.fst hsurvey)) left
  | ok found =>
      rw [on_bind_of_ok hsurvey, on_bind_of_ok hsurvey]
      exact (h found m₁ (congrArg Prod.fst hsurvey) left).behind left

theorem rehearsal_act {α : Type} (x : LastStep α) {needed : Bool}
    (hshows : ∀ m₁ m₂, m₁.Left m₂ m₁.store → shows m₁ → shows m₂)
    (hchange : needed = true → ∀ a m', on x.change m = (.ok a, m') → shows m') :
    Rehearsal m shows (on (x.act false needed) m) (on (x.act true needed) m) := by
  cases needed with
  | false =>
      obtain ⟨m₁, hdry, left⟩ := x.on_act_idle false m
      obtain ⟨m₂, happlied, left'⟩ := x.on_act_idle true m
      rw [hdry, happlied]
      exact .idle left left'
  | true =>
      obtain ⟨m₁, hdry, left⟩ := x.on_act_dry m
      rw [hdry]
      rcases hrun : on x.change m with ⟨failure | a, m'⟩
      · rw [x.on_act_of_error hrun]
        exact .refused _ failure left
      · obtain ⟨m₂, happlied, left'⟩ := x.on_act_of_ok hrun
        rw [happlied]
        exact .applied left (hshows m' m₂ left' (hchange rfl a m' hrun))

/--
What the end of a dry run tells of the run that applies the change, whatever the encoding.
Success means that there is nothing to change; a foretold change means that the run fails
or succeeds; all else is the same for both.
-/
structure Honest (m : Machine) (dry applied : Ending × Machine) : Prop where
  harmless : dry.2.store = m.store
  idle : dry.1.code = 0 → applied.1.code = 0 ∧ ¬ m.store.Changed applied.2.store
  pending : dry.1.code = 2 → applied.1.code ≠ 2
  other : dry.1.code ∉ [0, 2] → applied.1 = dry.1 ∧ ¬ m.store.Changed applied.2.store

/-- A run that succeeds behind a foretold change has changed files and shows what was foretold. -/
structure Faithful (m : Machine) (shows : Machine → Prop) (dry applied : Ending × Machine) :
    Prop extends Honest m dry applied where
  fulfilled : dry.1.code = 2 → applied.1.code = 0 →
    m.store.Changed applied.2.store ∧ shows applied.2

/-- What two runs side by side come to, once both have ended. -/
theorem Rehearsal.honest {shown : Text → Text} {x y : Except Stop Status × Machine}
    (h : Rehearsal m shows x y) (hparsed : ∀ complaint, (ended shown x).1 ≠ .badLine complaint) :
    Honest m (ended shown x) (ended shown y) ∧
      ((ended shown x).1.code = 2 → (ended shown y).1.code = 0 → shows (ended shown y).2) := by
  have hsame : ∀ {m₁}, m.Left m₁ m.store → ¬ m.store.Changed m₁.store := by
    rintro m₁ left ⟨place, hplace⟩
    rw [left.store] at hplace
    exact hplace rfl
  have hsuccess : ∀ m₁, (ended shown (.ok .success, m₁)).1.code = 0 := fun _ => rfl
  have hforetold : ∀ m₁, (ended shown (.ok .wouldChange, m₁)).1.code = 2 := fun _ => rfl
  cases h with
  | @stopped stop m₁ serious left =>
      have hline : ∀ call fault, stop ≠ .line call fault := by
        rintro call fault rfl
        exact hparsed _ rfl
      obtain ⟨hzero, htwo⟩ := code_of_serious shown serious hline
      exact ⟨⟨left.store, fun h => absurd h hzero, fun h => absurd h htwo,
        fun _ => ⟨rfl, hsame left⟩⟩, fun h => absurd h htwo⟩
  | idle left left' =>
      exact ⟨⟨left.store, fun _ => ⟨hsuccess _, hsame left'⟩, fun h => by simp [hsuccess] at h,
        fun h => by simp [hsuccess] at h⟩, fun h => by simp [hsuccess] at h⟩
  | @refused m₁ m₂ document failure left =>
      obtain ⟨hzero, htwo⟩ := code_of_serious shown
        (serious_ofFailure document failure) (ofFailure_ne_line document failure)
      exact ⟨⟨left.store, fun h => by simp [hforetold] at h, fun _ => htwo,
        fun h => by simp [hforetold] at h⟩, fun _ h => absurd h hzero⟩
  | applied left hshown =>
      exact ⟨⟨left.store, fun h => by simp [hforetold] at h,
        fun _ h => by simp [hsuccess] at h, fun h => by simp [hforetold] at h⟩,
        fun _ _ => hshown⟩

/-! ## Embedding and stripping -/

section Runs

variable [Platform]

/-- A document that is encoded as it was read, and whose reference does not lead to itself. -/
structure Steady (b : Backend) (m : Machine) (path : Path) : Prop where
  recoded : ∀ content t, b.Document m path content t → b.charset.encode t = .ok content
  elsewhere : ∀ place, b.LeadsTo m path place → m.store.locate m.here path ≠ .ok place

theorem Steady.left {b : Backend} {path : Path} (h : Steady b m path) (left : m.Left m' m.store) :
    Steady b m' path := by
  refine ⟨fun content t hdocument => h.recoded content t (hdocument.left left.symm), ?_⟩
  intro place hleads
  rw [left.store, left.here]
  exact h.elsewhere place (hleads.left left.symm)

/-- The text that a request foretells of its document. -/
def Foretold (c : Config) (m : Machine) : Request → Text → Prop
  | .embed document manifest _ _, after => ∃ payload content before,
      m.store.readFile m.here manifest = .ok payload ∧
        (backendOf c document).Document m document content before ∧
          Backend.updated c.strategy before document payload = .ok after
  | .strip document _ _, after => ∃ content before,
      (backendOf c document).Document m document content before ∧
        after = Backend.stripped c.strategy before
  | _, _ => False

/-- The document of a request has the text that the request has foretold. -/
def Shows (c : Config) (m : Machine) (request : Request) (document : Path) (m' : Machine) : Prop :=
  ∃ after content, Foretold c m request after ∧
    (backendOf c document).Document m' document content after

/-- The text that a request foretells is read back from the octets that it is encoded as. -/
def Recalled (c : Config) (m : Machine) (request : Request) (document : Path) : Prop :=
  ∀ after, Foretold c m request after → (backendOf c document).charset.Recalls after

/-- Files have changed, and the document shows what was foretold, just if that is read back. -/
def Fulfils (c : Config) (m : Machine) (request : Request) (document : Path) (m' : Machine) :
    Prop :=
  m.store.Changed m'.store ∧ Shows c m request document m' ↔ Recalled c m request document

section Requests

variable {request : Request} {after : Text}

theorem Foretold.unique {after' : Text} (h : Foretold c m request after)
    (h' : Foretold c m request after') : after' = after := by
  cases request with
  | embed document manifest apply diff =>
      obtain ⟨payload, content, before, hpayload, hdocument, hafter⟩ := h
      obtain ⟨payload', content', before', hpayload', hdocument', hafter'⟩ := h'
      obtain ⟨-, rfl⟩ := hdocument.unique hdocument'
      obtain rfl : payload' = payload := Except.ok.inj (hpayload'.symm.trans hpayload)
      exact Except.ok.inj (hafter'.symm.trans hafter)
  | strip document apply diff =>
      obtain ⟨content, before, hdocument, rfl⟩ := h
      obtain ⟨content', before', hdocument', rfl⟩ := h'
      rw [(hdocument.unique hdocument').2]
  | _ => exact absurd h id

theorem Foretold.left (h : Foretold c m request after) (left : m.Left m' m.store) :
    Foretold c m' request after := by
  cases request with
  | embed document manifest apply diff =>
      obtain ⟨payload, content, before, hpayload, hdocument, hafter⟩ := h
      refine ⟨payload, content, before, ?_, hdocument.left left, hafter⟩
      rw [left.store, left.here]
      exact hpayload
  | strip document apply diff =>
      obtain ⟨content, before, hdocument, hafter⟩ := h
      exact ⟨content, before, hdocument.left left, hafter⟩
  | _ => exact h

theorem foretold_left_iff (left : m.Left m' m.store) :
    Foretold c m' request after ↔ Foretold c m request after :=
  ⟨fun h => h.left left.symm, fun h => h.left left⟩

/-- A request goes by the files of a machine alone. -/
theorem fulfils_left_iff {m'' : Machine} (left : m.Left m' m.store) :
    Fulfils c m' request document m'' ↔ Fulfils c m request document m'' := by
  simp only [Fulfils, Shows, Recalled, foretold_left_iff left, left.store]

theorem fulfils_left (m₁ m₂ : Machine) (left : m₁.Left m₂ m₁.store)
    (h : Fulfils c m request document m₁) : Fulfils c m request document m₂ := by
  have hshows : Shows c m request document m₂ ↔ Shows c m request document m₁ := by
    constructor
    · rintro ⟨after, content, hforetold, hdocument⟩
      exact ⟨after, content, hforetold, hdocument.left left.symm⟩
    · rintro ⟨after, content, hforetold, hdocument⟩
      exact ⟨after, content, hforetold, hdocument.left left⟩
  rw [Fulfils, hshows, left.store]
  exact h

theorem Foretold.fulfils_iff (h : Foretold c m request after) :
    Fulfils c m request document m' ↔
      ((m.store.Changed m'.store ∧
          ∃ content, (backendOf c document).Document m' document content after) ↔
        (backendOf c document).charset.Recalls after) := by
  have hshows : Shows c m request document m' ↔
      ∃ content, (backendOf c document).Document m' document content after := by
    constructor
    · rintro ⟨after', content, h', hdocument⟩
      rw [h.unique h'] at hdocument
      exact ⟨content, hdocument⟩
    · rintro ⟨content, hdocument⟩
      exact ⟨after, content, h, hdocument⟩
  have hrecalled : Recalled c m request document ↔
      (backendOf c document).charset.Recalls after := by
    constructor
    · exact fun hrecalled => hrecalled after h
    · intro hrecalls after' h'
      rw [h.unique h']
      exact hrecalls
  rw [Fulfils, hshows, hrecalled]

end Requests

theorem rehearsal_embed (manifest : Path) (hdot : document.name ≠ ".")
    (hsteady : Steady (backendOf c document) m document) (diff : Bool) :
    Rehearsal m (Fulfils c m (.embed document manifest false diff) document)
      (on (embed c document manifest false diff) m)
      (on (embed c document manifest true diff) m) := by
  rw [embed_eq, embed_eq]
  refine rehearsal_bind (careful_surveyEmbed c document manifest diff)
    fun found m₁ hsurvey left => ?_
  obtain ⟨payload, changed⟩ := found
  obtain ⟨hpayload, content, before, after, hdocument, hafter, hneeded⟩ :=
    exists_of_surveyEmbed hsurvey
  refine rehearsal_act _ fulfils_left fun hchanged done m' hsave => ?_
  -- The survey was made on the machine that both runs started from.
  have hforetold : Foretold c m (.embed document manifest false diff) after :=
    ⟨payload, content, before, hpayload, hdocument, hafter⟩
  have hsame := ((backendOf c document).quiet_wouldChange document payload).same m m₁ left
  rw [← fulfils_left_iff left, (hforetold.left left).fulfils_iff]
  exact Backend.fulfilled_of_saveAt hdot (hdocument.left left)
    (hsteady.recoded content before hdocument) hafter
    (hsame.trans (hneeded.trans (congrArg Except.ok hchanged))) hsave

theorem rehearsal_strip (hsteady : Steady (backendOf c document) m document) (diff : Bool) :
    Rehearsal m (Fulfils c m (.strip document false diff) document)
      (on (strip c document false diff) m) (on (strip c document true diff) m) := by
  rw [strip_eq, strip_eq]
  refine rehearsal_bind (careful_surveyStrip c document diff) fun present m₁ hsurvey left => ?_
  have hpresent := (on_surveyStrip_eq_ok_iff.mp hsurvey).2
  refine rehearsal_act _ fulfils_left fun hneeded removed m' hremove => ?_
  rw [hneeded] at hpresent
  obtain ⟨content, before, hdocument⟩ := Backend.exists_document_of_opening hpresent
  have hforetold : Foretold c m (.strip document false diff) (Backend.stripped c.strategy before) :=
    ⟨content, before, hdocument, rfl⟩
  have hsame := ((backendOf c document).quiet_hasManifest document).same m m₁ left
  rw [← fulfils_left_iff left, (hforetold.left left).fulfils_iff]
  exact Backend.fulfilled_of_removeAt (hdocument.left left)
    (hsteady.recoded content before hdocument) (hsteady.left left).elsewhere
    (hsame.trans hpresent) hremove

/-! ## Command lines -/

/-- How a command line of a command ends on a machine. -/
def ends (shown : Text → Text) (verb : Verb) (call : Call) (c : Config) (detailed : Bool)
    (words : List String) (m : Machine) : Ending × Machine :=
  (ending shown (runVerb verb call c detailed words) : StateM Machine Ending).run m

section Lines

variable {verb : Verb} {call : Call} {letter : Option Char} {words words' : List String}
  {line line' : Line}

theorem rehearsal_perform (hverb : verb = .embed ∨ verb = .strip) (detailed : Bool)
    (happlies : line'.Applies line)
    (hsteady : Steady (backendOf c line.document) m line.document) :
    Rehearsal m (Fulfils c m (.ofLine verb line) line.document)
      (on (perform c detailed (.ofLine verb line)) m)
      (on (perform c detailed (.ofLine verb line')) m) := by
  have hdot : line.document.name ≠ "." := (Path.name_ofText _).1
  rcases hverb with rfl | rfl
  · have hembed := rehearsal_embed (Path.ofString ((line.value? "manifest").getD "")) hdot hsteady
      (line.has "diff")
    rw [Request.ofLine, Request.ofLine, happlies.operands, happlies.has_apply, happlies.dry,
      happlies.has_eq (by decide), happlies.value?_eq (by decide)]
    exact hembed
  · have hstrip := rehearsal_strip hsteady (line.has "diff")
    rw [Request.ofLine, Request.ofLine, happlies.operands, happlies.has_apply, happlies.dry,
      happlies.has_eq (by decide)]
    exact hstrip

theorem rehearsal_runVerb (hverb : verb = .embed ∨ verb = .strip) (detailed : Bool)
    (hcall : call.manual = verb.manual letter)
    (hread : Line.read call.manual.switches true words = .ok line)
    (hread' : Line.read call.manual.switches true words' = .ok line')
    (happlies : line'.Applies line)
    (hsteady : Steady (backendOf c line.document) m line.document) :
    Rehearsal m (Fulfils c m (.ofLine verb line) line.document)
      (on (runVerb verb call c detailed words) m)
      (on (runVerb verb call c detailed words') m) := by
  have hneeded : ∀ s ∈ call.manual.switches, s.required = true → s.name ≠ "apply" := by
    rw [hcall]
    exact required_ne_apply verb letter
  rw [runVerb_eq verb c detailed hread, runVerb_eq verb c detailed hread',
    happlies.has_eq (by decide), happlies.checking_eq hneeded]
  cases line.has "help" with
  | true =>
      simp only [if_true]
      exact .idle ⟨rfl, rfl, rfl⟩ ⟨rfl, rfl, rfl⟩
  | false =>
      simp only [Bool.false_eq_true, if_false]
      refine rehearsal_bind (careful_checking call line) fun _ m₁ _ left => ?_
      have hrehearsal := rehearsal_perform hverb detailed happlies (hsteady.left left)
      exact hrehearsal.mono fun m' => (fulfils_left_iff left).mp

/--
A dry run of embedding or stripping changes nothing and tells honestly of the run that
applies the change.  Where that succeeds behind a foretold change, it has made one and the
document has the text that was foretold, just if this text is read back from the octets that
it is encoded as.  A backend foretells a change exactly if a save that succeeds makes one,
unless the save repeats what is there.  With the codings that are written out here all texts
are read back, and no save repeats anything.
-/
theorem dry_run_faithful_iff (shown : Text → Text) (detailed : Bool)
    (hverb : verb = .embed ∨ verb = .strip) (hcall : call.manual = verb.manual letter)
    (hread : Line.read call.manual.switches true words = .ok line)
    (hread' : Line.read call.manual.switches true words' = .ok line')
    (happlies : line'.Applies line)
    (hsteady : Steady (backendOf c line.document) m line.document)
    (hparsed : ∀ complaint,
      (ends shown verb call c detailed words m).1 ≠ .badLine complaint) :
    Honest m (ends shown verb call c detailed words m)
      (ends shown verb call c detailed words' m) ∧
    (Faithful m (Shows c m (.ofLine verb line) line.document)
        (ends shown verb call c detailed words m) (ends shown verb call c detailed words' m) ↔
      ((ends shown verb call c detailed words m).1.code = 2 →
        (ends shown verb call c detailed words' m).1.code = 0 →
          Recalled c m (.ofLine verb line) line.document)) ∧
    (∀ payload m', on ((backendOf c line.document).saveAt line.document payload) m =
        (.ok (), m') →
      ∃ changed, (on ((backendOf c line.document).wouldChange line.document payload) m).1 =
        .ok changed ∧ ((changed = true ↔ m.store.Changed m'.store) ↔
          ¬ (backendOf c line.document).Repeats m line.document payload)) ∧
    ∀ k, (backendOf c line.document).charset = .codec k →
      Recalled c m (.ofLine verb line) line.document ∧
        ∀ payload, ¬ (backendOf c line.document).Repeats m line.document payload := by
  have hrehearsal := rehearsal_runVerb hverb detailed hcall hread hread' happlies hsteady
  rw [ends, run_ending] at hparsed
  rw [ends, ends, run_ending, run_ending]
  obtain ⟨hhonest, hfulfils⟩ := hrehearsal.honest hparsed
  refine ⟨hhonest, ⟨?_, ?_⟩, fun payload m' =>
    Backend.foretold_of_saveAt (Path.name_ofText _).1 hsteady.recoded, ?_⟩
  · intro hfaithful hdry happlied
    exact (hfulfils hdry happlied).mp (hfaithful.fulfilled hdry happlied)
  · intro hrecalled
    exact ⟨hhonest, fun hdry happlied =>
      (hfulfils hdry happlied).mpr (hrecalled hdry happlied)⟩
  · intro k hk
    have hrecalls : ∀ after, (backendOf c line.document).charset.Recalls after := by
      rw [hk]
      exact Charset.recalls_codec k
    exact ⟨fun after _ => hrecalls after, fun payload => Backend.not_repeats_of_recalls hrecalls⟩

end Lines

end Runs

section Bundled

attribute [local instance] Platform.bundled

def pageCall : Call :=
  ⟨"provmark embed", Verb.embed.manual (some 'h')⟩

def pageConfig : Config :=
  { Config.standard with strategy := .sidecar }

/-- A document without a reference, and a manifest to embed. -/
def pageMachine : Machine :=
  Machine.start ⟨[(["page.html"], .file (Charset.Codec.utf8.body "<head></head>".toList)),
    (["store"], .file [1])]⟩ [] [.sample]

def pageLine : Line :=
  ⟨[⟨⟨some 'm', "manifest", .file, true, "File holding the manifest store bytes."⟩, "store"⟩],
    ["page.html"]⟩

theorem steady_page : Steady (backendOf pageConfig pageLine.document) pageMachine
    pageLine.document := by
  have hdocument : (backendOf pageConfig pageLine.document).Document pageMachine
      pageLine.document (Charset.Codec.utf8.body "<head></head>".toList)
      "<head></head>".toList :=
    ⟨by decide +kernel, eq_ok_of_toOption (by decide +kernel),
      eq_ok_of_toOption (by decide +kernel)⟩
  constructor
  · intro content t h
    obtain ⟨rfl, rfl⟩ := hdocument.unique h
    exact eq_ok_of_toOption (by decide +kernel)
  · intro place hleads
    have hnowhere : (Sidecar.locate (backendOf pageConfig pageLine.document).charset
        "<head></head>".toList pageLine.document.parent).toOption = none := by decide +kernel
    obtain ⟨target, htarget, -⟩ := hleads.exists_target hdocument
    rw [htarget] at hnowhere
    cases hnowhere

theorem dry_run_faithful_page :
    (ends Terminal.plain .embed pageCall pageConfig false ["page.html", "-m", "store"]
      pageMachine).1.code = 2 ∧
    Faithful pageMachine (Shows pageConfig pageMachine (.ofLine .embed pageLine) pageLine.document)
      (ends Terminal.plain .embed pageCall pageConfig false
        ["page.html", "-m", "store"] pageMachine)
      (ends Terminal.plain .embed pageCall pageConfig false
        ["--apply", "page.html", "-m", "store"] pageMachine) := by
  have hread : Line.read pageCall.manual.switches true ["page.html", "-m", "store"] =
      .ok pageLine := eq_ok_of_toOption (by decide +kernel)
  have hread' : Line.read pageCall.manual.switches true
      ["--apply", "page.html", "-m", "store"] = .ok (pageLine.prepend [applying]) := by
    rw [read_apply_cons (by decide +kernel), hread]
    rfl
  have hcall : pageCall.manual = Verb.embed.manual (some 'h') := rfl
  have hended : (ends Terminal.plain .embed pageCall pageConfig false
      ["page.html", "-m", "store"] pageMachine).1 = .ended .wouldChange [] := by decide +kernel
  obtain ⟨-, hiff, -, hcodec⟩ := dry_run_faithful_iff Terminal.plain false (.inl rfl) hcall
    hread hread' (applies_prepend (by decide +kernel)) steady_page
    (by rw [hended]; exact fun _ h => by cases h)
  have hutf8 : (backendOf pageConfig pageLine.document).charset = .codec .utf8 :=
    Backend.charset_of_codecOf? (by decide +kernel)
  refine ⟨by rw [hended]; rfl, hiff.mpr fun _ _ => (hcodec .utf8 hutf8).1⟩

def escapeConfig : Config :=
  { Config.standard with strategy := .sidecar, encoding := "raw-unicode-escape" }

/-- A document whose name is an escape in its encoding, and a manifest to embed. -/
def escapeMachine : Machine :=
  Machine.start ⟨[(["\\u0041.html"], .file (Charset.Codec.ascii.body "<head></head>".toList)),
    (["store"], .file [1])]⟩ [] [.sample]

def escapeDocument : Path :=
  ⟨.none, ["\\u0041.html"]⟩

/-- The machine behind the run that applies the change. -/
def escapeApplied : Ending × Machine :=
  ends Terminal.plain .embed pageCall escapeConfig false
    ["--apply", "\\u0041.html", "-m", "store"] escapeMachine

/--
A change is foretold and applied, but the document does not get the text that was foretold;
the next dry run foretells a change once more, and applying it makes none.
-/
theorem dry_run_not_fulfilled :
    (ends Terminal.plain .embed pageCall escapeConfig false
      ["\\u0041.html", "-m", "store"] escapeMachine).1.code = 2 ∧
    escapeApplied.1.code = 0 ∧
    ¬ Shows escapeConfig escapeMachine
      (.embed escapeDocument ⟨.none, ["store"]⟩ false false) escapeDocument escapeApplied.2 ∧
    (ends Terminal.plain .embed pageCall escapeConfig false
      ["\\u0041.html", "-m", "store"] escapeApplied.2).1.code = 2 ∧
    (ends Terminal.plain .embed pageCall escapeConfig false
      ["--apply", "\\u0041.html", "-m", "store"] escapeApplied.2).2.store =
        escapeApplied.2.store := by
  have hforetold : Foretold escapeConfig escapeMachine
      (.embed escapeDocument ⟨.none, ["store"]⟩ false false)
      (Sidecar.insertReference "<head></head>".toList "\\u0041.html.c2pa".toList) :=
    ⟨[1], Charset.Codec.ascii.body "<head></head>".toList, "<head></head>".toList,
      eq_ok_of_toOption (by decide +kernel), ⟨by decide +kernel,
        eq_ok_of_toOption (by decide +kernel), eq_ok_of_toOption (by decide +kernel)⟩,
      eq_ok_of_toOption (by decide +kernel)⟩
  have hother : (escapeApplied.2.store.readFile escapeApplied.2.here escapeDocument).toOption.bind
      (fun content => ((backendOf escapeConfig escapeDocument).charset.decode content).toOption) ≠
        some (Sidecar.insertReference "<head></head>".toList "\\u0041.html.c2pa".toList) := by
    decide +kernel
  refine ⟨by decide +kernel, by decide +kernel, ?_, by decide +kernel, by decide +kernel⟩
  rintro ⟨after, content, hafter, hdocument⟩
  obtain rfl := hforetold.unique hafter
  rw [hdocument.read] at hother
  exact hother (congrArg Except.toOption hdocument.decoded)

end Bundled

end PageManifest.Command
