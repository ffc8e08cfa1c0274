import PageManifest.Proofs.CompanionRun
import PageManifest.Proofs.InPlace
import PageManifest.Proofs.Unlinking

/-! # What a backend foretells

Before it saves or removes, a backend can tell whether that would change anything.
It looks at the text of the document, and beside a document at the companion file,
and compares; the operation that follows writes and deletes on a path of its own.
The texts are compared, but it is octets that are written, so what was foretold comes
true as far as the text to be written is read back from its octets.
-/

namespace PageManifest

open Run

namespace Store

variable {s s' : Store} {place : Location} {node : Option Node}

/-- A store changes at some place. -/
def Changed (s s' : Store) : Prop :=
  ∃ place, s'.node? place ≠ s.node? place

theorem Updated.changed_iff (h : s.Updated s' place node) :
    s.Changed s' ↔ s.node? place ≠ node := by
  constructor
  · rintro ⟨other, hother⟩ hsame
    rw [h other] at hother
    by_cases hplace : other = place
    · rw [if_pos hplace, hplace, hsame] at hother
      exact hother rfl
    · rw [if_neg hplace] at hother
      exact hother rfl
  · intro hother
    refine ⟨place, ?_⟩
    rw [h place, if_pos rfl]
    exact Ne.symm hother

/-- Of two places that are updated one after the other, either may change the store. -/
theorem Updated.changed_trans_iff {s'' : Store} {other : Location} {node' : Option Node}
    (hapart : other ≠ place) (h : s.Updated s' place node) (h' : s'.Updated s'' other node') :
    s.Changed s'' ↔ s.node? place ≠ node ∨ s.node? other ≠ node' := by
  have hplace : s''.node? place = node := by
    rw [h' place, if_neg (Ne.symm hapart), h place, if_pos rfl]
  have hother : s''.node? other = node' := by
    rw [h' other, if_pos rfl]
  constructor
  · rintro ⟨third, hthird⟩
    rw [h' third, h third] at hthird
    by_cases hsecond : third = other
    · rw [if_pos hsecond, hsecond] at hthird
      exact .inr (Ne.symm hthird)
    · by_cases hfirst : third = place
      · rw [if_neg hsecond, if_pos hfirst, hfirst] at hthird
        exact .inl (Ne.symm hthird)
      · rw [if_neg hsecond, if_neg hfirst] at hthird
        exact absurd rfl hthird
  · rintro (hfirst | hsecond)
    · exact ⟨place, by rw [hplace]; exact Ne.symm hfirst⟩
    · exact ⟨other, by rw [hother]; exact Ne.symm hsecond⟩

end Store

namespace Backend

variable {b : Backend} {m m' : Machine} {path target : Path} {content payload : Bytes}
  {t after : Text} {place : Location}

/-- A companion file does not differ from a payload exactly if it is there and holds it. -/
theorem on_differing_eq_false_iff : (on (differing target payload) m).1 = .ok false ↔
    target.hasNul = false ∧ m.store.readFile m.here target = .ok payload := by
  have hunlike : (on (unlike target payload) m).1 = .ok false ↔
      target.hasNul = false ∧ m.store.readFile m.here target = .ok payload := by
    rw [unlike, on_bind_quiet (.read target) fun _ => .pure _]
    constructor
    · rintro ⟨held, hread, hsame⟩
      obtain ⟨hnul, hheld, -⟩ := on_read_eq_ok_iff.mp (on_eq_of_fst hread)
      simp only [on_pure, Except.ok.injEq, decide_eq_false_iff_not, Classical.not_not] at hsame
      exact ⟨hnul, hsame ▸ hheld⟩
    · rintro ⟨hnul, hheld⟩
      refine ⟨payload, congrArg Prod.fst (on_read_eq_ok_iff.mpr ⟨hnul, hheld, rfl⟩), ?_⟩
      simp [on_pure]
  rw [differing, on_bind_quiet (.isFile target) fun found => by
    split
    · exact quiet_unlike target payload
    · exact .pure _]
  constructor
  · rintro ⟨found, -, hdiffers⟩
    cases found with
    | false => cases hdiffers
    | true => exact hunlike.mp hdiffers
  · intro h
    obtain ⟨place, hlocate, hnode⟩ := Store.readFile_eq_ok_iff.mp h.2
    exact ⟨true, on_isFile_eq_true_iff.mpr ⟨h.1, place, payload, hlocate, hnode⟩, hunlike.mpr h⟩

theorem companion_of_updated (hb : b.strategy = .sidecar)
    (h : updated b.strategy t path payload = .ok after) :
    ∃ target, Sidecar.companion path = .ok target ∧
      after = Sidecar.insertReference t target.name.toList := by
  rw [hb, updated] at h
  cases htarget : Sidecar.companion path with
  | error failure =>
      rw [htarget] at h
      cases h
  | ok target =>
      rw [htarget] at h
      exact ⟨target, rfl, (Except.ok.inj h).symm⟩

/-! ## Documents on a machine that has changed -/

variable [Platform]

theorem Document.of_located (h : b.Document m path content t)
    (hsame : m.store.SameDirectories m'.store) (hhere : m'.here = m.here)
    (hlocate : m.store.locate m.here path = .ok place) {content' : Bytes} {t' : Text}
    (hnode : m'.store.node? place = some (.file content'))
    (hdecode : b.charset.decode content' = .ok t') : b.Document m' path content' t' := by
  refine ⟨h.noNul, ?_, hdecode⟩
  rw [hhere]
  exact Store.readFile_eq_ok_iff.mpr ⟨place, Store.locate_congr hsame hlocate, hnode⟩

/-- Rewritten with a text, a document holds the octets that the text is encoded as. -/
theorem RewriteOutcome.exists_read {α : Type} {done a : α}
    (houtcome : RewriteOutcome b m path after done (.ok a, m')) : ∃ octets,
      m'.store.readFile m'.here path = .ok octets ∧ b.charset.encode after = .ok octets := by
  cases houtcome with
  | @rewritten octets place _ takes left =>
      have hwritable := takes.2.writable
      have hupdated : m.store.Updated m'.store place (some (.file octets)) := by
        rw [Store.Updated, left.store]
        exact Store.node?_set m.store hwritable.place_ne_nil _
      have hsame := hupdated.sameDirectories hwritable.noDirectory (by simp)
      refine ⟨octets, ?_, takes.1⟩
      rw [left.here]
      refine Store.readFile_eq_ok_iff.mpr ⟨place, Store.locate_congr hsame hwritable.located, ?_⟩
      rw [hupdated place, if_pos rfl]

/-- Octets of a text are a document with that text just if it is read back from them. -/
theorem exists_document_iff {octets : Bytes} (hnul : path.hasNul = false)
    (hread : m.store.readFile m.here path = .ok octets)
    (hencode : b.charset.encode after = .ok octets) :
    (∃ content, b.Document m path content after) ↔ b.charset.Recalls after := by
  constructor
  · rintro ⟨content, hdocument⟩ bytes hbytes
    obtain rfl : content = octets := Except.ok.inj (hdocument.read.symm.trans hread)
    obtain rfl : content = bytes := Except.ok.inj (hencode.symm.trans hbytes)
    exact hdocument.decoded
  · intro hrecalls
    exact ⟨octets, hnul, hread, hrecalls octets hencode⟩

theorem Document.recalls (h : b.Document m path content t)
    (hrecoded : b.charset.encode t = .ok content) : b.charset.Recalls t :=
  (exists_document_iff h.noNul h.read hrecoded).mp ⟨content, h⟩

/-- Another text that is read back from its octets has other octets. -/
theorem Document.encode_ne (h : b.Document m path content t) (hother : after ≠ t)
    (hrecalls : b.charset.Recalls after) : b.charset.encode after ≠ .ok content :=
  fun hencode => hother (Except.ok.inj ((hrecalls content hencode).symm.trans h.decoded))

/-! ## Whether saving would change anything -/

/-- Nothing would change beside a document if its companion file holds the payload already. -/
theorem linked_of_wouldChange (hb : b.strategy = .sidecar)
    (h : (on (b.wouldChange path payload) m).1 = .ok false) :
    ∃ target content t, b.Linked m path target content t (some payload) := by
  obtain ⟨content, t, hdocument⟩ := exists_document_of_opening h
  cases htarget : Sidecar.companion path with
  | error failure =>
      have hupdate : on (b.update t path payload) m = (.error failure, m) := by
        unfold update
        rw [hb, updated, htarget]
        exact on_bind_of_error (on_value (.error failure) m)
      rw [wouldChange_eq, hdocument.on_opening, comparing, on_bind_of_error hupdate] at h
      cases h
  | ok target =>
      by_cases hsettled : Sidecar.insertReference t target.name.toList = t
      · rw [hdocument.on_wouldChange_of_settled hb htarget hsettled,
          on_differing_eq_false_iff] at h
        exact ⟨target, content, t, ⟨hdocument.noNul, htarget, h.1, hdocument.read,
          Store.readFile_eq_ok_iff.mp h.2⟩, hdocument.decoded, hsettled⟩
      · rw [hdocument.on_wouldChange_of_other hb (updated_sidecar hb htarget t payload)
          hsettled] at h
        cases h

/--
A save that changes nothing, although it would give the document another text: that has
the octets which are there, and the companion file, if there is to be one, its payload.
-/
def Repeats (b : Backend) (m : Machine) (path : Path) (payload : Bytes) : Prop :=
  ∃ content t after, b.Document m path content t ∧
    updated b.strategy t path payload = .ok after ∧ after ≠ t ∧
    b.charset.encode after = .ok content ∧
    (b.strategy = .sidecar → ∃ target, Sidecar.companion path = .ok target ∧
      m.store.readFile m.here target = .ok payload)

theorem Document.repeats_iff (h : b.Document m path content t)
    (hupdated : updated b.strategy t path payload = .ok after) :
    b.Repeats m path payload ↔ after ≠ t ∧ b.charset.encode after = .ok content ∧
      (b.strategy = .sidecar → ∃ target, Sidecar.companion path = .ok target ∧
        m.store.readFile m.here target = .ok payload) := by
  constructor
  · rintro ⟨content', t', after', h', hupdated', hrest⟩
    obtain ⟨rfl, rfl⟩ := h.unique h'
    obtain rfl : after' = after := Except.ok.inj (hupdated'.symm.trans hupdated)
    exact hrest
  · intro hrest
    exact ⟨content, t, after, h, hupdated, hrest⟩

/-- Where the text to be written is read back from its octets, they are not those of another. -/
theorem Document.not_repeats (h : b.Document m path content t)
    (hupdated : updated b.strategy t path payload = .ok after)
    (hrecalls : b.charset.Recalls after) : ¬ b.Repeats m path payload := by
  rw [h.repeats_iff hupdated]
  rintro ⟨hother, hencode, -⟩
  exact h.encode_ne hother hrecalls hencode

/-- A save repeats nothing where every text is read back from its octets. -/
theorem not_repeats_of_recalls (h : ∀ after, b.charset.Recalls after) :
    ¬ b.Repeats m path payload := by
  rintro ⟨content, t, after, hdocument, -, hother, hencode, -⟩
  exact hdocument.encode_ne hother (h after) hencode

/-! ## What saving does -/

/-- A document that is saved holds the octets of the text that was foretold. -/
theorem exists_read_of_saveAt (hdot : path.name ≠ ".") (h : b.Document m path content t)
    (hrecoded : b.charset.encode t = .ok content)
    (hupdated : updated b.strategy t path payload = .ok after)
    (hsave : on (b.saveAt path payload) m = (.ok (), m')) : ∃ octets,
      m'.store.readFile m'.here path = .ok octets ∧ b.charset.encode after = .ok octets := by
  cases hb : b.strategy with
  | inline =>
      rw [hb] at hupdated
      obtain rfl : Inline.embed t payload = after := Except.ok.inj hupdated
      have houtcome := on_saveAt_inline hb h payload
      rw [hsave] at houtcome
      exact houtcome.exists_read
  | sidecar =>
      obtain ⟨target, htarget, rfl⟩ := companion_of_updated hb hupdated
      obtain ⟨target', content', hpaired, hrewrites⟩ :=
        paired_of_saveAt hb hdot h.read h.decoded hsave
      obtain rfl : target' = target := Except.ok.inj (hpaired.named.symm.trans htarget)
      rcases hrewrites with ⟨hsame, rfl⟩ | ⟨-, hencode⟩
      · exact ⟨content', hpaired.readable, by rw [hsame, hrecoded]⟩
      · exact ⟨content', hpaired.readable, hencode⟩

theorem changed_by_rewriting_iff {α : Type} {done a : α} (h : b.Document m path content t)
    (houtcome : RewriteOutcome b m path after done (.ok a, m')) :
    m.store.Changed m'.store ↔ b.charset.encode after ≠ .ok content := by
  obtain ⟨-, place, octets, hlocate, hoctets, hupdated⟩ := houtcome.exists_place
  obtain ⟨place', hlocate', hnode⟩ := Store.readFile_eq_ok_iff.mp h.read
  obtain rfl : place' = place := Except.ok.inj (hlocate'.symm.trans hlocate)
  rw [hupdated.changed_iff, hnode, hoctets]
  simp [eq_comm]

theorem foretold_of_saveAt_inline (hb : b.strategy = .inline)
    (hrecoded : ∀ content t, b.Document m path content t → b.charset.encode t = .ok content)
    (hsave : on (b.saveAt path payload) m = (.ok (), m')) :
    ∃ changed, (on (b.wouldChange path payload) m).1 = .ok changed ∧
      ((changed = true ↔ m.store.Changed m'.store) ↔ ¬ b.Repeats m path payload) := by
  have hopening := congrArg Prod.fst hsave
  rw [saveAt_inline hb] at hopening
  obtain ⟨content, t, hdocument⟩ := exists_document_of_opening hopening
  have houtcome := on_saveAt_inline hb hdocument payload
  rw [hsave] at houtcome
  have hupdated : updated b.strategy t path payload = .ok (Inline.embed t payload) := by
    rw [hb]
    rfl
  refine ⟨_, hdocument.on_wouldChange_inline hb payload, ?_⟩
  rw [changed_by_rewriting_iff hdocument houtcome, hdocument.repeats_iff hupdated, hb]
  by_cases hsame : Inline.embed t payload = t
  · simp [hsame, hrecoded content t hdocument]
  · simp [hsame]

theorem Ready.exists_linked (h : b.Ready m path t target place)
    (hsettled : Sidecar.insertReference t target.name.toList = t) :
    ∃ content held, b.Linked m path target content t held ∧
      m.store.node? place = held.map .file := by
  obtain ⟨content, hdocument⟩ := h.document
  have hwritable := h.replaceable.writable
  have hheld : ∃ held : Option Bytes, m.store.node? place = held.map .file := by
    have hfile := hwritable.noDirectory
    cases hnode : m.store.node? place with
    | none => exact ⟨none, rfl⟩
    | some node =>
        cases node with
        | file held => exact ⟨some held, rfl⟩
        | directory => exact absurd hnode hfile
  obtain ⟨held, hheld⟩ := hheld
  exact ⟨content, held, ⟨⟨hdocument.noNul, h.named, hwritable.noNul, hdocument.read,
    place, hwritable.located, hheld⟩, hdocument.decoded, hsettled⟩, hheld⟩

/-- Two writes beside a document change nothing where each finds what it writes. -/
theorem changed_by_linking_iff {octets : Bytes} {document : Location} {m₁ : Machine}
    (hdot : path.name ≠ ".") (hdocument : b.Document m path content t)
    (ready : b.Ready m path t target place)
    (left : m.Left m₁ (m.store.set place (.file payload)))
    (takes : b.Takes m₁ path after octets document)
    (left' : m₁.Left m' (m₁.store.set document (.file octets))) :
    m.store.Changed m'.store ↔
      ¬ (m.store.readFile m.here target = .ok payload ∧ b.charset.encode after = .ok content) := by
  have hwritable := ready.replaceable.writable
  obtain ⟨document', hlocate, hnode⟩ := Store.readFile_eq_ok_iff.mp hdocument.read
  have hlocated := Store.locate_congr (ready.sameDirectories left) hlocate
  rw [← left.here, takes.2.writable.located] at hlocated
  obtain rfl := Except.ok.inj hlocated
  have hapart := place_ne_of_companion hdot ready.named hlocate hwritable.located
  have hupdated : m₁.store.Updated m'.store document (some (.file octets)) := by
    rw [Store.Updated, left'.store]
    exact Store.node?_set m₁.store takes.2.writable.place_ne_nil _
  have hcompanion : m.store.readFile m.here target = .ok payload ↔
      m.store.node? place = some (.file payload) := by
    rw [Store.readFile_eq_ok_iff]
    constructor
    · rintro ⟨place', hlocate', hnode'⟩
      obtain rfl := Except.ok.inj (hlocate'.symm.trans hwritable.located)
      exact hnode'
    · intro hnode'
      exact ⟨place, hwritable.located, hnode'⟩
  rw [(ready.updated left).changed_trans_iff hapart hupdated, hcompanion, hnode, takes.1]
  simp only [ne_eq, Option.some.injEq, Node.file.injEq, Except.ok.injEq, eq_comm (a := content)]
  exact Classical.not_and_iff_not_or_not.symm

/-- Beside a document, what was foretold of a save is what becomes of the files. -/
theorem foretold_of_saveAt_sidecar (hb : b.strategy = .sidecar) (hdot : path.name ≠ ".")
    (hsave : on (b.saveAt path payload) m = (.ok (), m')) :
    ∃ changed, (on (b.wouldChange path payload) m).1 = .ok changed ∧
      ((changed = true ↔ m.store.Changed m'.store) ↔ ¬ b.Repeats m path payload) := by
  have houtcome := saveOutcome hb m path payload
  rw [hsave] at houtcome
  cases houtcome with
  | @unchanged t _ _ _ ready same left =>
      obtain ⟨content, held, hlinked, hheld⟩ := ready.exists_linked same
      refine ⟨_, hlinked.on_wouldChange hb payload, ?_⟩
      rw [hlinked.document.repeats_iff (updated_sidecar hb ready.named t payload), same,
        (ready.updated left).changed_iff, hheld]
      cases held <;> simp
  | @linked t _ _ _ _ _ _ ready other left takes left' =>
      obtain ⟨content, hdocument⟩ := ready.document
      have hupdated := updated_sidecar hb ready.named t payload
      refine ⟨true, hdocument.on_wouldChange_of_other hb hupdated other, ?_⟩
      rw [changed_by_linking_iff hdot hdocument ready left takes left',
        hdocument.repeats_iff hupdated]
      simp only [ready.named, hb, other, true_iff, ne_eq, not_false_eq_true, true_and,
        forall_const, Except.ok.injEq, exists_eq_left']
      rw [and_comm]

/--
A backend foretells a change exactly if a save that succeeds changes some place, unless the
save repeats what is there.
-/
theorem foretold_of_saveAt (hdot : path.name ≠ ".")
    (hrecoded : ∀ content t, b.Document m path content t → b.charset.encode t = .ok content)
    (hsave : on (b.saveAt path payload) m = (.ok (), m')) :
    ∃ changed, (on (b.wouldChange path payload) m).1 = .ok changed ∧
      ((changed = true ↔ m.store.Changed m'.store) ↔ ¬ b.Repeats m path payload) := by
  cases hb : b.strategy with
  | sidecar => exact foretold_of_saveAt_sidecar hb hdot hsave
  | inline => exact foretold_of_saveAt_inline hb hrecoded hsave

/--
A save that was foretold to change something does, and leaves the text that was foretold,
just if that text is read back from its octets.
-/
theorem fulfilled_of_saveAt (hdot : path.name ≠ ".") (h : b.Document m path content t)
    (hrecoded : b.charset.encode t = .ok content)
    (hupdated : updated b.strategy t path payload = .ok after)
    (hneeded : (on (b.wouldChange path payload) m).1 = .ok true)
    (hsave : on (b.saveAt path payload) m = (.ok (), m')) :
    (m.store.Changed m'.store ∧ ∃ content', b.Document m' path content' after) ↔
      b.charset.Recalls after := by
  obtain ⟨octets, hread, hencode⟩ := exists_read_of_saveAt hdot h hrecoded hupdated hsave
  have hshown := exists_document_iff h.noNul hread hencode
  refine ⟨fun hchanged => hshown.mp hchanged.2, fun hrecalls => ⟨?_, hshown.mpr hrecalls⟩⟩
  have hall : ∀ content t, b.Document m path content t → b.charset.encode t = .ok content := by
    intro content' t' h'
    obtain ⟨rfl, rfl⟩ := h.unique h'
    exact hrecoded
  obtain ⟨changed, hforetold, hiff⟩ := foretold_of_saveAt hdot hall hsave
  obtain rfl : changed = true := Except.ok.inj (hforetold.symm.trans hneeded)
  exact (hiff.mpr (h.not_repeats hupdated hrecalls)).mp rfl

/-! ## What removing does -/

theorem hasManifest_inline (hb : b.strategy = .inline) (path : Path) :
    b.hasManifest path = b.opening path fun t => pure (Inline.hasElement t) := by
  rw [hasManifest, hb]
  rfl

theorem Document.on_hasManifest_inline (hb : b.strategy = .inline)
    (h : b.Document m path content t) :
    (on (b.hasManifest path) m).1 = .ok (Inline.hasElement t) := by
  rw [hasManifest_inline hb, h.on_opening, on_pure]

/--
A removal that was foretold changes files and leaves the text that was foretold, just if
that text is read back from its octets.
-/
theorem fulfilled_of_removeAt {removed : Bool} (h : b.Document m path content t)
    (hrecoded : b.charset.encode t = .ok content)
    (helsewhere : ∀ place, b.LeadsTo m path place → m.store.locate m.here path ≠ .ok place)
    (hpresent : (on (b.hasManifest path) m).1 = .ok true)
    (hremove : on (b.removeAt path) m = (.ok removed, m')) :
    (m.store.Changed m'.store ∧
      ∃ content', b.Document m' path content' (stripped b.strategy t)) ↔
      b.charset.Recalls (stripped b.strategy t) := by
  cases hb : b.strategy with
  | inline =>
      rw [h.on_hasManifest_inline hb, Except.ok.injEq] at hpresent
      have houtcome := on_removeAt_inline_of_hasElement hb h hpresent
      rw [hremove] at houtcome
      obtain ⟨octets, hread, hencode⟩ := houtcome.exists_read
      have hshown := exists_document_iff h.noNul hread hencode
      refine ⟨fun hchanged => hshown.mp hchanged.2, fun hrecalls => ⟨?_, hshown.mpr hrecalls⟩⟩
      exact (changed_by_rewriting_iff h houtcome).mpr
        (h.encode_ne (Inline.remove_ne_of_hasElement hpresent) hrecalls)
  | sidecar =>
      refine iff_of_true ?_ (h.recalls hrecoded)
      obtain ⟨place, hleads⟩ := (on_hasManifest_eq_true_iff hb).mp hpresent
      have hupdated := hleads.updated hb
      obtain ⟨m₁, hremoved, left⟩ := hleads.on_removeAt hb
      obtain rfl : m' = m₁ := (Prod.mk.inj (hremove.symm.trans hremoved)).2
      rw [hremove] at hupdated
      obtain ⟨-, -, -, held, -, -, -, -, hheld⟩ := id hleads
      obtain ⟨document, hlocate, hnode⟩ := Store.readFile_eq_ok_iff.mp h.read
      have hapart : document ≠ place := by
        rintro rfl
        exact helsewhere document hleads hlocate
      refine ⟨hupdated.changed_iff.mpr (by simp [hheld]), content, ?_⟩
      refine h.of_located (hupdated.sameDirectories (by simp [hheld]) (by simp)) left.here hlocate
        ?_ h.decoded
      rw [hupdated document, if_neg hapart]
      exact hnode

end Backend

end PageManifest
