import PageManifest.Platform.Bundled
import PageManifest.Proofs.Partition
import PageManifest.Proofs.Setbacks
import PageManifest.Proofs.TemporaryNames

/-! # Saving that fails late

A document whose updated text cannot be encoded is noticed only after its companion
file was written, and so is a path that no file can be moved to.  Apart from that a
failed save changes nothing, unless a second refusal keeps it from cleaning up.
-/

namespace PageManifest

open Run

namespace Backend

variable {b : Backend} {m m' : Machine} {path target : Path} {t : Text} {place : Location}
  {payload : Bytes}

/-- The temporary files of a document are tried where those of its companion file are. -/
theorem temporaries_of_companion (h : Sidecar.companion path = .ok target) (tempPrefix : String)
    (hhere : m'.here = m.here) (hfresh : m'.fresh = m.fresh) :
    m'.temporaries tempPrefix path = m.temporaries tempPrefix target := by
  have hparent : target.parent = path.parent := by
    rw [(Sidecar.companion_eq_ok_iff.mp h).2, Path.parent, Path.parent]
    simp
  rw [Machine.temporaries, Machine.temporaries, hhere, hfresh, hparent]

section Encodings

variable [Platform]

/-- What was taken is taken, and what was free is free, behind the companion file. -/
theorem Ready.spare (h : b.Ready m path t target place)
    (left : m.Left m' (m.store.set place (.file payload))) : ∃ temporary spot,
      FirstFit m'.Taken m'.Free (m'.temporaries b.config.tempPrefix path) temporary spot := by
  have hsame := h.sameDirectories left
  have htemporaries := temporaries_of_companion h.named b.config.tempPrefix left.here left.fresh
  have hown : m.temporaries b.config.tempPrefix path = m.temporaries b.config.tempPrefix target :=
    temporaries_of_companion h.named b.config.tempPrefix rfl rfl
  obtain ⟨temporary, spot, hfit⟩ := h.replaceable.spare
  refine ⟨temporary, spot, ?_⟩
  rw [htemporaries]
  refine hfit.imp ?_ ?_
  · rintro first - ⟨hnul, spot', node, hlocate, hnode⟩
    have hthere := h.updated left spot'
    refine ⟨hnul, ?_⟩
    rw [left.here]
    by_cases hplace : spot' = place
    · rw [if_pos hplace] at hthere
      exact ⟨spot', _, Store.locate_congr hsame hlocate, hthere⟩
    · rw [if_neg hplace] at hthere
      exact ⟨spot', node, Store.locate_congr hsame hlocate, hthere.trans hnode⟩
  · intro hmem hfree
    have hplace : spot ≠ place := by
      rintro rfl
      rw [← hown] at hmem
      exact Machine.locate_ne_of_mem hmem h.named hfree.located
        h.replaceable.writable.located
    refine ⟨hfree.noNul, ?_, ?_⟩
    · rw [left.here]
      exact Store.locate_congr hsame hfree.located
    · rw [h.updated left, if_neg hplace]
      exact hfree.vacant

/-- Behind its companion file, a document can be replaced wherever a file can be moved. -/
theorem replaceable_behind_companion (h : b.Ready m path t target place)
    (left : m.Left m' (m.store.set place (.file payload))) :
    (∃ document, m'.Replaceable b.config.tempPrefix path document) ↔ path.name ≠ ".." := by
  constructor
  · rintro ⟨document, -, hwritable⟩ hup
    exact hwritable.named (.inr hup)
  · intro hup
    obtain ⟨content, hcontent, -⟩ := h.readable
    obtain ⟨document, hdocument, hfile⟩ := Store.readFile_eq_ok_iff.mp hcontent
    refine ⟨document, h.spare left, h.noNul, ?_, ?_, ?_⟩
    · rw [left.here]
      exact Store.locate_congr (h.sameDirectories left) hdocument
    · rw [h.updated left]
      split
      · simp
      · rw [hfile]
        simp
    · rintro (hparts | hname)
      · exact Sidecar.parts_ne_nil_of_companion h.named hparts
      · exact hup hname

/--
A save that fails behind its companion file: the document needs another text, and that
cannot be encoded, or the last part of the path leads up.
-/
def FailsLate (b : Backend) (m : Machine) (path : Path) (place : Location) : Prop :=
  ∃ t target, b.Ready m path t target place ∧
    Sidecar.insertReference t target.name.toList ≠ t ∧
    ((∀ octets, b.charset.encode (Sidecar.insertReference t target.name.toList) ≠ .ok octets) ∨
      path.name = "..")

theorem Ready.unique {t' : Text} {target' : Path} {place' : Location}
    (h : b.Ready m path t target place) (h' : b.Ready m path t' target' place') :
    t' = t ∧ target' = target ∧ place' = place := by
  obtain ⟨content, hread, hdecode⟩ := h.readable
  obtain rfl : target' = target := Except.ok.inj (h'.named.symm.trans h.named)
  have hlocate := h.replaceable.writable.located
  have hlocate' := h'.replaceable.writable.located
  exact ⟨h'.text_eq hread hdecode, rfl, Except.ok.inj (hlocate'.symm.trans hlocate)⟩

/-- A save that has come past the companion file without success fails late. -/
theorem failsLate_of_stuck (h : b.Ready m path t target place)
    (other : Sidecar.insertReference t target.name.toList ≠ t)
    (left : m.Left m' (m.store.set place (.file payload)))
    (stuck : ∀ octets document,
      ¬ b.Takes m' path (Sidecar.insertReference t target.name.toList) octets document) :
    b.FailsLate m path place := by
  refine ⟨t, target, h, other, ?_⟩
  by_cases hencode : ∃ octets,
      b.charset.encode (Sidecar.insertReference t target.name.toList) = .ok octets
  · right
    obtain ⟨octets, hencode⟩ := hencode
    refine Decidable.byContradiction fun hup => ?_
    obtain ⟨document, hdocument⟩ := (replaceable_behind_companion h left).mpr hup
    exact stuck octets document ⟨hencode, hdocument⟩
  · exact .inl fun octets hoctets => hencode ⟨octets, hoctets⟩

/-- What fails late fails, with the new companion file in its place and all else as it was. -/
theorem FailsLate.exists_failure (hb : b.strategy = .sidecar) (h : b.FailsLate m path place)
    (payload : Bytes) : ∃ failure m', on (b.saveAt path payload) m = (.error failure, m') ∧
      m.store.Updated m'.store place (some (.file payload)) := by
  obtain ⟨t, target, hready, hother, hreason⟩ := h
  have houtcome := saveOutcome hb m path payload
  cases hsave : on (b.saveAt path payload) m with
  | mk result m' =>
      rw [hsave] at houtcome
      cases houtcome with
      | refused unready => exact absurd hready (unready t target place)
      | unchanged ready same left =>
          obtain ⟨rfl, rfl, -⟩ := hready.unique ready
          exact absurd same hother
      | @linked _ _ _ document octets _ _ ready other left takes left' =>
          obtain ⟨rfl, rfl, rfl⟩ := hready.unique ready
          have hpossible := (replaceable_behind_companion ready left).mp ⟨document, takes.2⟩
          rcases hreason with hencode | hup
          · exact absurd takes.1 (hencode octets)
          · exact absurd hup hpossible
      | late ready other left stuck =>
          obtain ⟨-, -, rfl⟩ := hready.unique ready
          exact ⟨_, _, rfl, ready.updated left⟩

/--
A save that fails leaves every place as it was, except where it fails late and the
companion file did not hold the payload already.  The same goes for a machine that
refuses steps for reasons of its own: only a document that is still to get another text
leaves its new companion file behind, and only a temporary file whose deletion is refused
stays.
-/
theorem failed_save_unchanged_iff (hb : b.strategy = .sidecar) (m : Machine) (path : Path)
    (payload : Bytes) :
    ((∀ failure m', on (b.saveAt path payload) m = (.error failure, m') →
        ∀ place, m'.store.node? place = m.store.node? place) ↔
      ∀ place, b.FailsLate m path place → m.store.node? place = some (.file payload)) ∧
    (∀ place, b.FailsLate m path place →
      ∃ failure m', on (b.saveAt path payload) m = (.error failure, m') ∧
        m.store.Updated m'.store place (some (.file payload))) ∧
    ∀ (strain : Strain) failure m',
      on (strain.under (b.saveAt path payload)) m = (.error failure, m') →
        strain.Keeps m.store m'.store ∨ ∃ content t target place, b.Document m path content t ∧
          Sidecar.companion path = .ok target ∧
          Sidecar.insertReference t target.name.toList ≠ t ∧
          m.store.locate m.here target = .ok place ∧
          strain.Keeps (m.store.set place (.file payload)) m'.store := by
  refine ⟨⟨?_, ?_⟩, fun place hfails => hfails.exists_failure hb payload,
    fun strain failure m' => keeps_of_saveAt_error hb⟩
  · intro hsame place hfails
    obtain ⟨failure, m', hsave, hupdated⟩ := hfails.exists_failure hb payload
    have hplace := hupdated place
    rw [if_pos rfl, hsame failure m' hsave] at hplace
    exact hplace
  · intro hheld failure m' hsave
    have houtcome := saveOutcome hb m path payload
    rw [hsave] at houtcome
    cases houtcome with
    | refused unready => exact fun _ => rfl
    | @late t target written _ _ ready other left stuck =>
        intro place
        rw [ready.updated left place]
        split
        · rename_i hwritten
          rw [hwritten, hheld written (failsLate_of_stuck ready other left stuck)]
        · rfl

end Encodings

section Bundled

attribute [local instance] Platform.bundled

def asciiSidecar : Backend :=
  ⟨.sidecar, { Config.standard with strategy := .sidecar, encoding := "ascii" }, ⟨.none, []⟩, none⟩

/-- A document with an accent in its name, beside a companion file. -/
def accentedMachine (held : Bytes) : Machine :=
  Machine.start ⟨[(["\u00E9.html"], .file (Charset.Codec.ascii.body "<head></head>".toList)),
    (["\u00E9.html.c2pa"], .file held)]⟩ [] [.sample]

def accentedPath : Path :=
  ⟨.none, ["\u00E9.html"]⟩

-- The name of the companion file cannot be encoded, but it holds the payload already.
theorem failed_save_unchanged_accented :
    (∃ failure, (on (asciiSidecar.saveAt accentedPath [2]) (accentedMachine [2])).1 =
      .error failure) ∧
    ∀ failure m', on (asciiSidecar.saveAt accentedPath [2]) (accentedMachine [2]) =
        (.error failure, m') →
      ∀ place, m'.store.node? place = (accentedMachine [2]).store.node? place := by
  refine ⟨exists_error_of_toOption (by decide +kernel),
    (failed_save_unchanged_iff rfl (accentedMachine [2]) accentedPath [2]).1.mpr ?_⟩
  rintro place ⟨t, target, hready, -, -⟩
  have hcompanion : Sidecar.companion accentedPath = .ok ⟨.none, ["\u00E9.html.c2pa"]⟩ :=
    eq_ok_of_toOption (by decide +kernel)
  have hlocate : (accentedMachine [2]).store.locate [] ⟨.none, ["\u00E9.html.c2pa"]⟩ =
      .ok ["\u00E9.html.c2pa"] := eq_ok_of_toOption (by decide +kernel)
  obtain rfl := Except.ok.inj (hready.named.symm.trans hcompanion)
  obtain rfl := Except.ok.inj (hready.replaceable.writable.located.symm.trans hlocate)
  decide +kernel

theorem failed_save_replaces_companion :
    (∃ failure, (on (asciiSidecar.saveAt accentedPath [2]) (accentedMachine [1])).1 =
      .error failure) ∧
    (accentedMachine [1]).store.node? ["\u00E9.html.c2pa"] = some (.file [1]) ∧
    (on (asciiSidecar.saveAt accentedPath [2]) (accentedMachine [1])).2.store.node?
      ["\u00E9.html.c2pa"] = some (.file [2]) :=
  ⟨exists_error_of_toOption (by decide +kernel), by decide +kernel, by decide +kernel⟩

end Bundled

end Backend

end PageManifest
