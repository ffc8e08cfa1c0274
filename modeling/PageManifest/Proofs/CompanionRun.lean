import PageManifest.Platform.Bundled
import PageManifest.Proofs.Documents
import PageManifest.Proofs.Partition

/-! # Runs of saving and removing beside a document

Once a document refers to its companion file it stays as it is.  Every further save
replaces the companion file and every removal deletes it, and what the backend
tells of the manifest is what the last of them has left.  All of this rests on the
reference being read back as it was written, which not every coding warrants.
-/

namespace PageManifest

open Run

namespace Backend

variable {b : Backend} {m m' : Machine} {path target : Path} {content : Bytes} {t : Text}
  {held : Option Bytes}

/-- A document and its companion file lie at different places. -/
theorem place_ne_of_companion {s : Store} {here document place : Location}
    (hdot : path.name ≠ ".") (htarget : Sidecar.companion path = .ok target)
    (hdocument : s.locate here path = .ok document) (hplace : s.locate here target = .ok place) :
    document ≠ place := by
  have hname : Path.isName path.name.toList = true := by
    rw [Path.isName_toList_iff, not_or]
    exact ⟨(Sidecar.companion_eq_ok_iff.mp htarget).1, hdot⟩
  have hlonger : path.name.toList.length < (path.name ++ Sidecar.companionSuffix).toList.length ∧
      2 < (path.name ++ Sidecar.companionSuffix).toList.length := by
    have hsuffix : Sidecar.companionSuffix.toList.length = 5 := by decide
    rw [String.toList_append, List.length_append]
    omega
  have hcut : path = ⟨path.root, path.parts.dropLast ++ [path.name]⟩ :=
    (Path.parent_child_name (Sidecar.parts_ne_nil_of_companion htarget)).symm
  rw [(Sidecar.companion_eq_ok_iff.mp htarget).2] at hplace
  rw [hcut] at hdocument
  -- Both names are looked up in one directory, where the longer one leads elsewhere.
  obtain ⟨directory, hup, hdown, hsibling⟩ := Store.exists_directory_of_locate hname hdocument
  have hother := hsibling _ place (Path.isName_of_length (by omega))
    (fun hdots => by simp [hdots] at hlonger) hplace
  rintro rfl
  by_cases hdots : path.name = ".."
  · have hlength := congrArg List.length ((hup hdots).symm.trans hother)
    simp at hlength
  · have hsame := (hdown hdots).symm.trans hother
    have hnames := (List.cons.inj (List.append_inj_right' hsame rfl)).1
    rw [← hnames] at hlonger
    omega

/-- A document with its octets, and what its companion file holds, if it is there. -/
structure Paired (m : Machine) (path target : Path) (content : Bytes) (held : Option Bytes) :
    Prop where
  noNul : path.hasNul = false
  named : Sidecar.companion path = .ok target
  noNul' : target.hasNul = false
  readable : m.store.readFile m.here path = .ok content
  placed : ∃ place, m.store.locate m.here target = .ok place ∧
    m.store.node? place = held.map .file

namespace Paired

theorem left (h : Paired m path target content held) (hleft : m.Left m' m.store) :
    Paired m' path target content held := by
  obtain ⟨place, hlocate, hnode⟩ := h.placed
  refine ⟨h.noNul, h.named, h.noNul', ?_, ⟨place, ?_, ?_⟩⟩
  · rw [hleft.store, hleft.here]
    exact h.readable
  · rw [hleft.store, hleft.here]
    exact hlocate
  · rw [hleft.store]
    exact hnode

theorem readFile_companion (h : Paired m path target content held) :
    m.store.readFile m.here target = held.elim (.error .noEntry) .ok := by
  obtain ⟨place, hlocate, hnode⟩ := h.placed
  rw [Store.readFile, Store.find, hlocate]
  cases held <;> simp_all

theorem on_read_companion (h : Paired m path target content held) :
    on (Files.read target) m =
      (held.elim (.error (.os (OsFault.on .noEntry target.toString))) .ok, m) := by
  rw [on_read, h.noNul', h.readFile_companion]
  cases held <;> rfl

theorem on_size? (h : Paired m path target content held) :
    on (Files.size? target) m = (.ok (held.map List.length), m) := by
  obtain ⟨place, hlocate, hnode⟩ := h.placed
  have hstatus : on (Files.status? target) m =
      (.ok (held.map fun payload => .file payload.length), m) := by
    rw [on_status?, h.noNul', Store.status, Store.find, hlocate]
    cases held with
    | none =>
        simp only [hnode, Option.map_none]
        rfl
    | some payload =>
        simp only [hnode, Option.map_some]
        rfl
  unfold Files.size?
  rw [on_bind_of_ok hstatus]
  cases held <;> rfl

theorem on_isFile (h : Paired m path target content held) :
    on (Files.isFile target) m = (.ok held.isSome, m) := by
  unfold Files.isFile
  rw [on_bind_of_ok h.on_size?, on_pure, Option.isSome_map]

/-- Deleting the companion file leaves the document as it is. -/
theorem on_remove_companion (h : Paired m path target content held) (hdot : path.name ≠ ".") :
    ∃ m', on (Files.remove target) m = (.ok held.isSome, m') ∧
      Paired m' path target content none := by
  obtain ⟨place, hlocate, hnode⟩ := h.placed
  rw [on_remove, h.noNul', Store.removeFile, Store.find, hlocate]
  cases held with
  | none =>
      simp only [hnode, Option.map_none]
      exact ⟨m, rfl, h⟩
  | some payload =>
      have hplace : place ≠ [] := by
        rintro rfl
        cases hnode
      have herased : m.store.Updated (m.store.erase place) place none :=
        Store.node?_erase m.store hplace
      have hsame : m.store.SameDirectories (m.store.erase place) :=
        herased.sameDirectories (by simp [hnode]) (by simp)
      simp only [hnode, Option.map_some]
      refine ⟨_, rfl, h.noNul, h.named, h.noNul', ?_,
        ⟨place, Store.locate_congr hsame hlocate, ?_⟩⟩
      · obtain ⟨document, hdocument, hfile⟩ := Store.readFile_eq_ok_iff.mp h.readable
        have hapart := place_ne_of_companion hdot h.named hdocument hlocate
        refine Store.readFile_eq_ok_iff.mpr ⟨document, Store.locate_congr hsame hdocument, ?_⟩
        rw [herased document, if_neg hapart]
        exact hfile
      · rw [herased place, if_pos rfl]
        rfl

end Paired

section Law

variable [Platform]

/--
A document that refers to its companion file, and what that file holds, if it is
there.  Writing the reference once more would not change the document.
-/
structure Linked (b : Backend) (m : Machine) (path target : Path) (content : Bytes) (t : Text)
    (held : Option Bytes) : Prop extends Paired m path target content held where
  decodes : b.charset.decode content = .ok t
  settled : Sidecar.insertReference t target.name.toList = t

/-- A reference that is read back: the name of the document and the encoding admit it. -/
structure Legible (b : Backend) (path target : Path) (t : Text) : Prop where
  name : Sidecar.Linkable path.name.toList
  marks : Sidecar.MarksReference b.charset t target.name.toList

namespace Linked

theorem left (h : b.Linked m path target content t held) (hleft : m.Left m' m.store) :
    b.Linked m' path target content t held :=
  ⟨h.toPaired.left hleft, h.decodes, h.settled⟩

theorem locate_eq (h : b.Linked m path target content t held)
    (hlegible : b.Legible path target t) :
    Sidecar.locate b.charset t path.parent = .ok target := by
  have hlocate := Sidecar.locate_insertReference h.named hlegible.name hlegible.marks
  rw [h.settled] at hlocate
  exact hlocate

/-! ## What the backend tells -/

theorem document (h : b.Linked m path target content t held) : b.Document m path content t :=
  ⟨h.noNul, h.readable, h.decodes⟩

/-- Operations on a linked document work on its text. -/
theorem on_open {α : Type} (h : b.Linked m path target content t held)
    (next : Text → Run (StateM Machine) α) :
    on (Files.read path >>= fun content => b.decoded content >>= next) m = on (next t) m :=
  h.document.on_opening next

theorem on_readAt (hb : b.strategy = .sidecar) (h : b.Linked m path target content t held)
    (hlegible : b.Legible path target t) :
    (on (b.readAt path) m).1 =
      held.elim (.error (.companionUnreadable target (OsFault.on .noEntry target.toString)))
        fun payload => if payload.isEmpty then .error (.companionEmpty target)
          else .ok payload := by
  have hnoted := on_noteAll (ReferenceScan.notices t) m
  have hread := (h.toPaired.left (m.left_noting (ReferenceScan.notices t))).on_read_companion
  unfold readAt readFrom
  rw [h.on_open, hb]
  unfold Sidecar.read
  rw [on_bind_of_ok hnoted, h.locate_eq hlegible, on_bind_of_ok (on_value (.ok target) _), on_bind,
    on_tryCatch, hread]
  rcases held with _ | _ | _ <;> rfl

theorem on_hashRegionsAt (hb : b.strategy = .sidecar)
    (h : b.Linked m path target content t held) (hlegible : b.Legible path target t) :
    (on (b.hashRegionsAt path) m).1 =
      held.elim (.error (.companionMissing target))
        fun payload => .ok [⟨0, payload.length, .excluded⟩] := by
  have hnoted := on_noteAll (ReferenceScan.notices t) m
  have hsize := (h.toPaired.left (m.left_noting (ReferenceScan.notices t))).on_size?
  unfold hashRegionsAt hashRegionsFrom
  rw [h.on_open, hb]
  unfold Sidecar.hashRegions
  rw [on_bind_of_ok hnoted, h.locate_eq hlegible, on_bind_of_ok (on_value (.ok target) _),
    on_bind_of_ok hsize]
  cases held <;> rfl

theorem on_located (h : b.Linked m path target content t held)
    (hlegible : b.Legible path target t) : ∃ m', b.Linked m' path target content t held ∧
      on (Sidecar.located b.charset t path.parent) m = (.ok (some target), m') := by
  refine ⟨m.noting (ReferenceScan.notices t), h.left (m.left_noting _), ?_⟩
  unfold Sidecar.located
  rw [on_bind_of_ok (on_noteAll _ m), h.locate_eq hlegible]
  rfl

theorem on_hasManifest (hb : b.strategy = .sidecar) (h : b.Linked m path target content t held)
    (hlegible : b.Legible path target t) :
    (on (b.hasManifest path) m).1 = .ok held.isSome := by
  obtain ⟨m', h', hlocated⟩ := h.on_located hlegible
  unfold hasManifest
  rw [h.on_open, hb, on_bind_of_ok hlocated]
  exact congrArg Prod.fst h'.on_isFile

theorem on_wouldChange (hb : b.strategy = .sidecar) (h : b.Linked m path target content t held)
    (payload : Bytes) :
    (on (b.wouldChange path payload) m).1 = .ok (decide (held ≠ some payload)) := by
  rw [h.document.on_wouldChange_of_settled hb h.named h.settled, differing,
    on_bind_of_ok h.on_isFile]
  cases held with
  | none => rfl
  | some kept =>
      simp only [Option.isSome_some, if_true]
      rw [unlike, on_bind_of_ok h.on_read_companion, on_pure]
      simp

theorem on_removeAt (hb : b.strategy = .sidecar) (h : b.Linked m path target content t held)
    (hlegible : b.Legible path target t) (hdot : path.name ≠ ".") :
    ∃ m', on (b.removeAt path) m = (.ok held.isSome, m') ∧
      b.Linked m' path target content t none := by
  obtain ⟨m₁, h₁, hlocated⟩ := h.on_located hlegible
  obtain ⟨m₂, hremove, hpaired⟩ := h₁.toPaired.on_remove_companion hdot
  have h₂ : b.Linked m₂ path target content t none := ⟨hpaired, h.decodes, h.settled⟩
  have hremoved : on (Sidecar.remove b.charset t path.parent) m = (.ok held.isSome, m₂) := by
    unfold Sidecar.remove
    rw [on_bind_of_ok hlocated]
    exact hremove
  unfold removeAt
  rw [h.on_open, hb]
  simp only
  rw [on_bind_of_ok hremoved]
  cases held with
  | none => exact ⟨m₂, rfl, h₂⟩
  | some payload =>
      have hnoted := on_noteAll [Log.Record.info "provmark.backends.sidecar"
        ("sidecar: removed companion manifest of " ++ path.toString)] m₂
      exact ⟨_, on_bind_of_ok hnoted, h₂.left (m₂.left_noting _)⟩

end Linked

/-! ## What saving and removing lead to -/

section Saving

variable {payload : Bytes} {place document : Location}

theorem Ready.paired (h : b.Ready m path t target place)
    (hsame : m.store.SameDirectories m'.store) (hhere : m'.here = m.here)
    (hdocument : m.store.locate m.here path = .ok document)
    (hcontent : m'.store.node? document = some (.file content))
    (hheld : m'.store.node? place = some (.file payload)) :
    Paired m' path target content (some payload) := by
  refine ⟨h.noNul, h.named, h.replaceable.writable.noNul, ?_, place, ?_, hheld⟩
  · rw [hhere]
    exact Store.readFile_eq_ok_iff.mpr ⟨document, Store.locate_congr hsame hdocument, hcontent⟩
  · rw [hhere]
    exact Store.locate_congr hsame h.replaceable.writable.located

/-- What a save leaves of the octets of a document: they are rewritten for its reference only. -/
def Rewrites (b : Backend) (t updated : Text) (before after : Bytes) : Prop :=
  (updated = t ∧ after = before) ∨ (updated ≠ t ∧ b.charset.encode updated = .ok after)

/-- What is rewritten decodes to its text if that is read back from the octets it is encoded as. -/
theorem Rewrites.decode_iff {updated : Text} {before after : Bytes}
    (h : b.Rewrites t updated before after) (hdecode : b.charset.decode before = .ok t) :
    b.charset.decode after = .ok updated ↔ updated = t ∨ b.charset.Recalls updated := by
  rcases h with ⟨rfl, rfl⟩ | ⟨hother, hencode⟩
  · exact ⟨fun _ => .inl rfl, fun _ => hdecode⟩
  · constructor
    · intro hafter
      refine .inr fun bytes hbytes => ?_
      rw [← Except.ok.inj (hencode.symm.trans hbytes)]
      exact hafter
    · rintro (hsame | hrecalls)
      · exact absurd hsame hother
      · exact hrecalls after hencode

/-- What is rewritten can be encoded: it comes from octets, or has been written as some. -/
theorem Rewrites.encodes {k : Charset.Codec} {updated : Text} {before after : Bytes}
    (h : b.Rewrites t updated before after) (hk : b.charset = .codec k)
    (hdecode : b.charset.decode before = .ok t) : k.Encodes updated := by
  rw [hk] at hdecode
  rcases h with ⟨rfl, -⟩ | ⟨-, hencode⟩
  · exact Charset.Codec.encodes_of_decode (Charset.decode_codec_eq_ok_iff.mp hdecode)
  · rw [hk] at hencode
    exact (Charset.Codec.encode_eq_ok_iff.mp (Charset.encode_codec_eq_ok_iff.mp hencode)).1

theorem paired_of_saveAt (hb : b.strategy = .sidecar) (hdot : path.name ≠ ".")
    (hread : m.store.readFile m.here path = .ok content)
    (hdecode : b.charset.decode content = .ok t)
    (hsave : on (b.saveAt path payload) m = (.ok (), m')) : ∃ target content',
      Paired m' path target content' (some payload) ∧
      b.Rewrites t (Sidecar.insertReference t target.name.toList) content content' := by
  obtain ⟨document, hdocument, hfile⟩ := Store.readFile_eq_ok_iff.mp hread
  have houtcome := saveOutcome hb m path payload
  rw [hsave] at houtcome
  cases houtcome with
  | @unchanged t' target place _ ready same left =>
      obtain rfl : t' = t := ready.text_eq hread hdecode
      have hupdated := ready.updated left
      have hapart := place_ne_of_companion hdot ready.named hdocument
        ready.replaceable.writable.located
      refine ⟨target, content, ?_, .inl ⟨same, rfl⟩⟩
      refine ready.paired (ready.sameDirectories left) left.here hdocument ?_ ?_
      · rw [hupdated document, if_neg hapart]
        exact hfile
      · rw [hupdated place, if_pos rfl]
  | @linked t' target place document' octets m₁ _ ready other left takes left' =>
      obtain rfl : t' = t := ready.text_eq hread hdecode
      have hupdated := ready.updated left
      have hsame := ready.sameDirectories left
      have hapart := place_ne_of_companion hdot ready.named hdocument
        ready.replaceable.writable.located
      -- The document is rewritten where it was read, although the store has changed since.
      have hlocated := Store.locate_congr hsame hdocument
      rw [← left.here, takes.2.writable.located] at hlocated
      obtain rfl := Except.ok.inj hlocated
      have hupdated' : m₁.store.Updated m'.store document' (some (.file octets)) := by
        rw [Store.Updated, left'.store]
        exact Store.node?_set m₁.store takes.2.writable.place_ne_nil _
      have hsame' := hupdated'.sameDirectories takes.2.writable.noDirectory (by simp)
      refine ⟨target, octets, ?_, .inr ⟨other, takes.1⟩⟩
      refine ready.paired (hsame.trans hsame') (left'.here.trans left.here) hdocument ?_ ?_
      · rw [hupdated' document', if_pos rfl]
      · rw [hupdated' place, if_neg (Ne.symm hapart), hupdated place, if_pos rfl]

/-- Text that is read back leaves the document with its reference. -/
theorem Paired.linked {before : Bytes} (h : Paired m path target content held)
    (hrewrites : b.Rewrites t (Sidecar.insertReference t target.name.toList) before content)
    (hdecode : b.charset.decode before = .ok t)
    (hrecalls : Sidecar.insertReference t target.name.toList = t ∨
      b.charset.Recalls (Sidecar.insertReference t target.name.toList)) :
    b.Linked m path target content (Sidecar.insertReference t target.name.toList) held :=
  ⟨h, (hrewrites.decode_iff hdecode).mpr hrecalls, Sidecar.insertReference_insertReference ..⟩

/-- Saving beside a linked document replaces the companion file and nothing else. -/
theorem Linked.on_saveAt (hb : b.strategy = .sidecar)
    (h : b.Linked m path target content t held) (hdot : path.name ≠ ".")
    (hsave : on (b.saveAt path payload) m = (.ok (), m')) :
    b.Linked m' path target content t (some payload) := by
  -- This is a first save of the linked document; its reference is settled already.
  obtain ⟨target', content', h', hrewrites⟩ := paired_of_saveAt hb hdot h.readable h.decodes hsave
  obtain rfl : target' = target := Except.ok.inj (h'.named.symm.trans h.named)
  rcases hrewrites with ⟨-, rfl⟩ | ⟨hother, -⟩
  · exact ⟨h', h.decodes, h.settled⟩
  · exact absurd h.settled hother

end Saving

/-! ## Runs -/

inductive Call
  | save (payload : Bytes)
  | remove
  deriving DecidableEq, Repr

/-- What a step leaves in the companion file, if it leaves one. -/
def Call.leaves : Call → Option Bytes
  | save payload => some payload
  | remove => none

def perform (b : Backend) (path : Path) : Call → Run (StateM Machine) Unit
  | .save payload => b.saveAt path payload
  | .remove => do
      let _ ← b.removeAt path

/-- Steps one after the other, up to the first that fails. -/
def performAll (b : Backend) (path : Path) : List Call → Run (StateM Machine) Unit
  | [] => pure ()
  | call :: calls => do
      b.perform path call
      b.performAll path calls

theorem Linked.on_perform (hb : b.strategy = .sidecar)
    (h : b.Linked m path target content t held) (hlegible : b.Legible path target t)
    (hdot : path.name ≠ ".") {call : Call}
    (hrun : on (b.perform path call) m = (.ok (), m')) :
    b.Linked m' path target content t call.leaves := by
  cases call with
  | save payload => exact h.on_saveAt hb hdot hrun
  | remove =>
      obtain ⟨m₁, hremove, h₁⟩ := h.on_removeAt hb hlegible hdot
      rw [perform, on_bind_of_ok hremove, on_pure] at hrun
      cases hrun
      exact h₁

/-- A run leaves the document linked, with what its last step has left beside it. -/
theorem Linked.on_performAll (hb : b.strategy = .sidecar) {call : Call}
    (h : b.Linked m path target content t call.leaves) (hlegible : b.Legible path target t)
    (hdot : path.name ≠ ".") {calls : List Call}
    (hrun : on (b.performAll path calls) m = (.ok (), m')) :
    b.Linked m' path target content t (calls.getLast?.getD call).leaves := by
  induction calls generalizing m call with
  | nil =>
      rw [performAll, on_pure] at hrun
      cases hrun
      exact h
  | cons next calls ih =>
      obtain ⟨_, m₁, hfirst, hrest⟩ := exists_of_on_bind hrun
      rw [List.getLast?_cons]
      exact ih (h.on_perform hb hlegible hdot hfirst) hrest

/-- What the backend tells of a manifest that is there. -/
structure Kept (b : Backend) (m : Machine) (path target : Path) (payload : Bytes) : Prop where
  holds : m.store.readFile m.here target = .ok payload
  reads : payload ≠ [] → (on (b.readAt path) m).1 = .ok payload
  present : (on (b.hasManifest path) m).1 = .ok true
  settled : (on (b.wouldChange path payload) m).1 = .ok false
  regions : (on (b.hashRegionsAt path) m).1 = .ok [⟨0, payload.length, .excluded⟩]
  removed : (on (b.removeAt path) m).1 = .ok true

/-- What the backend tells of a manifest that is not there. -/
structure Gone (b : Backend) (m : Machine) (path target : Path) : Prop where
  missing : m.store.readFile m.here target = .error .noEntry
  reads : ∃ failure, (on (b.readAt path) m).1 = .error failure ∧
    failure.category = .manifestMissing
  absent : (on (b.hasManifest path) m).1 = .ok false
  regions : ∃ failure, (on (b.hashRegionsAt path) m).1 = .error failure ∧
    failure.category = .manifestMissing
  removed : (on (b.removeAt path) m).1 = .ok false

/-- What the backend tells behind a step that has left this in the companion file. -/
def Tells (b : Backend) (m : Machine) (path target : Path) : Option Bytes → Prop
  | some payload => b.Kept m path target payload
  | none => b.Gone m path target

theorem Linked.tells (hb : b.strategy = .sidecar) (h : b.Linked m path target content t held)
    (hlegible : b.Legible path target t) (hdot : path.name ≠ ".") :
    b.Tells m path target held := by
  obtain ⟨m₁, hremove, -⟩ := h.on_removeAt hb hlegible hdot
  cases held with
  | none =>
      constructor
      · exact h.readFile_companion
      · exact ⟨_, h.on_readAt hb hlegible, rfl⟩
      · exact h.on_hasManifest hb hlegible
      · exact ⟨_, h.on_hashRegionsAt hb hlegible, rfl⟩
      · exact congrArg Prod.fst hremove
  | some payload =>
      constructor
      · exact h.readFile_companion
      · intro hne
        refine (h.on_readAt hb hlegible).trans (if_neg ?_)
        rw [List.isEmpty_iff]
        exact hne
      · exact h.on_hasManifest hb hlegible
      · rw [h.on_wouldChange hb payload]
        simp
      · exact h.on_hashRegionsAt hb hlegible
      · exact congrArg Prod.fst hremove

/-- A manifest is found only where the value of the reference can be marked. -/
theorem Linked.marks_of_present (hb : b.strategy = .sidecar)
    (h : b.Linked m path target content t held)
    (hpresent : (on (b.hasManifest path) m).1 = .ok true) :
    Sidecar.MarksReference b.charset t target.name.toList := by
  refine Classical.byContradiction fun hunmarked => ?_
  obtain ⟨fault, hlocate⟩ :=
    Sidecar.locate_insertReference_of_unmarked h.named hunmarked path.parent
  rw [h.settled] at hlocate
  have hcategory : (Failure.charset fault).category ≠ .manifestMissing := by
    cases fault <;> nofun
  have hlocated : on (Sidecar.located b.charset t path.parent) m =
      (.error (.charset fault), m.noting (ReferenceScan.notices t)) := by
    unfold Sidecar.located
    rw [on_bind_of_ok (on_noteAll _ m), hlocate]
    simp only [hcategory, if_false]
    rfl
  unfold hasManifest at hpresent
  rw [h.on_open, hb, on_bind_of_error hlocated] at hpresent
  cases hpresent

/--
The law of runs behind a first save: the document stays as it is with the text that was to
be written, and behind every run of steps the backend tells what the last one has left.
-/
def Follows (b : Backend) (m : Machine) (path : Path) (first : Bytes) (updated : Text) : Prop :=
  ∃ target content, Sidecar.companion path = .ok target ∧
    b.charset.decode content = .ok updated ∧
    ∀ calls m', on (b.performAll path calls) m = (.ok (), m') →
      m'.store.readFile m'.here path = .ok content ∧
      b.Tells m' path target (calls.getLast?.getD (.save first)).leaves

theorem Linked.follows (hb : b.strategy = .sidecar) {first : Bytes}
    (h : b.Linked m path target content t (some first)) (hlegible : b.Legible path target t)
    (hdot : path.name ≠ ".") : b.Follows m path first t := by
  refine ⟨target, content, h.named, h.decodes, fun calls m' hrun => ?_⟩
  have hbegin : b.Linked m path target content t (Call.save first).leaves := h
  have hend := hbegin.on_performAll hb hlegible hdot hrun
  exact ⟨hend.readable, hend.tells hb hlegible hdot⟩

omit [Platform] in
theorem ofText_name_ne_dot (w : Text) : (Path.ofText w).name ≠ "." := by
  rw [Path.name]
  cases hlast : (Path.ofText w).parts.getLast? with
  | none => decide
  | some name =>
      have hname := Path.name_of_mem_parts (List.mem_of_getLast? hlast)
      exact fun hdot => Path.isName_toList_iff.mp hname.1 (.inr hdot)

omit [Platform] in
theorem slash_not_mem_ofText_name (w : Text) : '/' ∉ (Path.ofText w).name.toList := by
  rw [Path.name]
  cases hlast : (Path.ofText w).parts.getLast? with
  | none => decide
  | some name => exact (Path.name_of_mem_parts (List.mem_of_getLast? hlast)).2

/--
Behind a first save the document keeps its reference and stays as it is, and after every
further step the backend tells what the last step has left, just if the text that was to be
written is read back from the octets it is encoded as, and the value of the reference in it
can be marked.  The codings that are written out here warrant both.
-/
theorem run_beside_document_iff (hb : b.strategy = .sidecar) {w : Text} {first : Bytes}
    {original : Text} {m₁ : Machine}
    (hblank : Text.trimStart (Path.ofText w).name.toList = (Path.ofText w).name.toList)
    (hdata : ¬ "data:".toList <+: (Path.ofText w).name.toList)
    (hread : m.store.readFile m.here (Path.ofText w) = .ok content)
    (hdecode : b.charset.decode content = .ok original)
    (hsave : on (b.saveAt (Path.ofText w) first) m = (.ok (), m₁)) :
    (b.Follows m₁ (Path.ofText w) first
        (Sidecar.insertReference original ((Path.ofText w).name ++ ".c2pa").toList) ↔
      (Sidecar.insertReference original ((Path.ofText w).name ++ ".c2pa").toList = original ∨
        b.charset.Recalls
          (Sidecar.insertReference original ((Path.ofText w).name ++ ".c2pa").toList)) ∧
      Sidecar.MarksReference b.charset original ((Path.ofText w).name ++ ".c2pa").toList) ∧
    ∀ k, b.charset = .codec k → b.Follows m₁ (Path.ofText w) first
      (Sidecar.insertReference original ((Path.ofText w).name ++ ".c2pa").toList) := by
  have hdot := ofText_name_ne_dot w
  obtain ⟨target, linked, h, hrewrites⟩ := paired_of_saveAt hb hdot hread hdecode hsave
  have hname : target.name = (Path.ofText w).name ++ ".c2pa" := Sidecar.name_companion h.named
  rw [← hname]
  have hlinkable : Sidecar.Linkable (Path.ofText w).name.toList :=
    ⟨hblank, hdata, slash_not_mem_ofText_name w⟩
  have hmarks : Sidecar.MarksReference b.charset
      (Sidecar.insertReference original target.name.toList) target.name.toList ↔
        Sidecar.MarksReference b.charset original target.name.toList :=
    Sidecar.marksReference_insertReference_iff ..
  have hiff : b.Follows m₁ (Path.ofText w) first
      (Sidecar.insertReference original target.name.toList) ↔
        (Sidecar.insertReference original target.name.toList = original ∨
          b.charset.Recalls (Sidecar.insertReference original target.name.toList)) ∧
        Sidecar.MarksReference b.charset original target.name.toList := by
    constructor
    · rintro ⟨target', content', hnamed, hdecodes, hlaw⟩
      -- The run without a step already tells what has become of the document.
      obtain ⟨hcontent, htells⟩ := hlaw [] m₁ (on_pure () m₁)
      obtain rfl : content' = linked := Except.ok.inj (hcontent.symm.trans h.readable)
      have hrecalls := (hrewrites.decode_iff hdecode).mp hdecodes
      have hkept : b.Kept m₁ (Path.ofText w) target' first := htells
      have hlinked := h.linked hrewrites hdecode hrecalls
      exact ⟨hrecalls, hmarks.mp (hlinked.marks_of_present hb hkept.present)⟩
    · rintro ⟨hrecalls, hmarked⟩
      exact (h.linked hrewrites hdecode hrecalls).follows hb
        ⟨hlinkable, hmarks.mpr hmarked⟩ hdot
  refine ⟨hiff, fun k hk => hiff.mpr ?_⟩
  have hencodes := hrewrites.encodes hk hdecode
  rw [hk]
  exact ⟨.inr (Charset.recalls_codec k _), Sidecar.marksReference_codec hencodes⟩

end Law

def plainSidecar : Backend :=
  ⟨.sidecar, { Config.standard with strategy := .sidecar }, ⟨.none, []⟩, none⟩

def ampersandName : Text :=
  "a&b.html".toList

section Bundled

attribute [local instance] Platform.bundled

/-- A document whose name has to be escaped in its reference. -/
def ampersandMachine : Machine :=
  Machine.start ⟨[(["a&b.html"], .file (Charset.Codec.utf8.body "<head></head>".toList))]⟩ []
    [.sample]

/-- The document with a payload of one octet beside it. -/
def ampersandSaved : Machine :=
  (on (plainSidecar.saveAt (Path.ofText ampersandName) [1]) ampersandMachine).2

theorem run_beside_document_ampersand : ∃ target linked m',
    on (plainSidecar.performAll (Path.ofText ampersandName) [.remove, .save [2]])
      ampersandSaved = (.ok (), m') ∧
    Sidecar.companion (Path.ofText ampersandName) = .ok target ∧
    m'.store.readFile m'.here (Path.ofText ampersandName) = .ok linked ∧
    plainSidecar.charset.decode linked = .ok (Sidecar.insertReference "<head></head>".toList
      ((Path.ofText ampersandName).name ++ ".c2pa").toList) ∧
    plainSidecar.Kept m' (Path.ofText ampersandName) target [2] := by
  have hread : ampersandMachine.store.readFile ampersandMachine.here
      (Path.ofText ampersandName) = .ok (Charset.Codec.utf8.body "<head></head>".toList) :=
    eq_ok_of_toOption (by decide +kernel)
  have hdecode : plainSidecar.charset.decode (Charset.Codec.utf8.body "<head></head>".toList) =
      .ok "<head></head>".toList := eq_ok_of_toOption (by decide +kernel)
  have hsave : on (plainSidecar.saveAt (Path.ofText ampersandName) [1]) ampersandMachine =
      (.ok (), ampersandSaved) :=
    Prod.ext (eq_ok_of_toOption (by decide +kernel)) (by rw [ampersandSaved])
  have hok : (on (plainSidecar.performAll (Path.ofText ampersandName) [.remove, .save [2]])
      ampersandSaved).1 = .ok () := eq_ok_of_toOption (by decide +kernel)
  obtain ⟨-, hcodec⟩ := run_beside_document_iff rfl (by decide +kernel) (by decide +kernel) hread
    hdecode hsave
  obtain ⟨target, linked, htarget, hlinked, hrest⟩ :=
    hcodec .utf8 (charset_of_codecOf? (by decide +kernel))
  rcases hrun : on (plainSidecar.performAll (Path.ofText ampersandName) [.remove, .save [2]])
    ampersandSaved with ⟨result, m'⟩
  obtain rfl : result = .ok () := by
    rw [hrun] at hok
    exact hok
  obtain ⟨hkept, htells⟩ := hrest _ _ hrun
  exact ⟨target, linked, m', rfl, htarget, hkept, hlinked, htells⟩

def escapeSidecar : Backend :=
  ⟨.sidecar, { Config.standard with strategy := .sidecar, encoding := "raw-unicode-escape" },
    ⟨.none, []⟩, none⟩

def escapeName : Text :=
  "\\u0041.html".toList

/-- A document whose name is an escape in its encoding. -/
def escapeMachine : Machine :=
  Machine.start ⟨[(["\\u0041.html"], .file (Charset.Codec.ascii.body "<head></head>".toList))]⟩ []
    [.sample]

/-- The document with a payload of one octet beside it. -/
def escapeSaved : Machine :=
  (on (escapeSidecar.saveAt (Path.ofText escapeName) [1]) escapeMachine).2

/-- The companion file is written under one name, and the reference read back leads to another. -/
theorem run_beside_document_unread :
    on (escapeSidecar.saveAt (Path.ofText escapeName) [1]) escapeMachine = (.ok (), escapeSaved) ∧
    escapeSaved.store.readFile escapeSaved.here (Path.ofText "\\u0041.html.c2pa".toList) =
      .ok [1] ∧
    (on (escapeSidecar.hasManifest (Path.ofText escapeName)) escapeSaved).1 = .ok false ∧
    ¬ escapeSidecar.Follows escapeSaved (Path.ofText escapeName) [1]
      (Sidecar.insertReference "<head></head>".toList
        ((Path.ofText escapeName).name ++ ".c2pa").toList) := by
  have habsent : (on (escapeSidecar.hasManifest (Path.ofText escapeName)) escapeSaved).1 =
      .ok false := eq_ok_of_toOption (by decide +kernel)
  refine ⟨Prod.ext (eq_ok_of_toOption (by decide +kernel)) (by rw [escapeSaved]),
    eq_ok_of_toOption (by decide +kernel), habsent, ?_⟩
  rintro ⟨target, content, -, -, hlaw⟩
  obtain ⟨-, htells⟩ := hlaw [] escapeSaved (on_pure () escapeSaved)
  have hpresent := Kept.present
    (htells : escapeSidecar.Kept escapeSaved (Path.ofText escapeName) target [1])
  rw [habsent] at hpresent
  cases hpresent

end Bundled

end Backend

end PageManifest
