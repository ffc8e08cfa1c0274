import PageManifest.Backend.Basic
import PageManifest.Proofs.Strained
import PageManifest.Proofs.Targets

/-! # Saving beside a document

Saving writes the companion file first and the document second.  Up to the
companion file a failure leaves the machine as it was; behind it, a document that
cannot take its reference leaves the new companion file standing.
-/

namespace PageManifest

open Run

/-- A machine that differs in its store at most, and in what has been noted on it. -/
structure Machine.Left (m m' : Machine) (s : Store) : Prop where
  store : m'.store = s
  here : m'.here = m.here
  fresh : m'.fresh = m.fresh

theorem Machine.left_noting (m : Machine) (records : List Log.Record) :
    m.Left (m.noting records) m.store :=
  ⟨rfl, rfl, rfl⟩

namespace Backend

variable {b : Backend} {m m' : Machine} {path target : Path} {t : Text} {place : Location}
  {payload : Bytes}

section Coding

variable {charset : Charset} {content : Bytes}

theorem on_decoded_of_ok (h : charset.decode content = .ok t) (m : Machine) :
    on (Sidecar.decoded charset content) m = (.ok t, m) := by
  rw [Sidecar.decoded, on_value, h]
  rfl

theorem on_decoded_of_error {fault : Charset.Fault} (h : charset.decode content = .error fault)
    (m : Machine) : on (Sidecar.decoded charset content) m = (.error (.charset fault), m) := by
  rw [Sidecar.decoded, on_value, h]
  rfl

theorem on_encoded_of_ok (h : charset.encode t = .ok content) (m : Machine) :
    on (Sidecar.encoded charset t) m = (.ok content, m) := by
  rw [Sidecar.encoded, on_value, h]
  rfl

theorem on_encoded_of_error {fault : Charset.Fault} (h : charset.encode t = .error fault)
    (m : Machine) : on (Sidecar.encoded charset t) m = (.error (.charset fault), m) := by
  rw [Sidecar.encoded, on_value, h]
  rfl

end Coding

theorem on_writeCompanion_of_replaceable {tempPrefix : String}
    (htarget : Sidecar.companion path = .ok target)
    (h : m.Replaceable tempPrefix target place) (payload : Bytes) :
    ∃ m', on (Sidecar.writeCompanion tempPrefix path payload) m = (.ok target, m') ∧
      m.Left m' (m.store.set place (.file payload)) := by
  have hnamed : on (Files.value (Sidecar.companion path)) m = (.ok target, m) := by
    rw [on_value, htarget]
  have hreplace := on_replace_of_replaceable h payload
  exact ⟨_, (on_bind_of_ok hnamed).trans ((on_bind_of_ok hreplace).trans
    ((on_bind_of_ok (on_noteAll _ _)).trans (on_pure _ _))), rfl, rfl, rfl⟩

theorem on_writeCompanion_of_not_replaceable {tempPrefix : String}
    (h : ∀ target place, Sidecar.companion path = .ok target →
      ¬ m.Replaceable tempPrefix target place) (payload : Bytes) :
    ∃ failure, on (Sidecar.writeCompanion tempPrefix path payload) m = (.error failure, m) := by
  unfold Sidecar.writeCompanion
  cases htarget : Sidecar.companion path with
  | error failure =>
      have hnamed : on (Files.value (.error failure : Except Failure Path)) m =
          (.error failure, m) := rfl
      exact ⟨failure, on_bind_of_error hnamed⟩
  | ok target =>
      have hnamed : on (Files.value (.ok target : Except Failure Path)) m =
          (.ok target, m) := rfl
      obtain ⟨failure, hreplace⟩ :=
        on_replace_of_not_replaceable (fun place => h target place htarget) payload
      exact ⟨failure, by rw [on_bind_of_ok hnamed, on_bind_of_error hreplace]⟩

variable [Platform]

theorem charset_of_codecOf? {k : Charset.Codec}
    (h : Charset.codecOf? b.config.encoding = some k) : b.charset = .codec k :=
  Charset.ofName_of_codecOf? h

/-- A document that can be read, and a place for its companion file. -/
structure Ready (b : Backend) (m : Machine) (path : Path) (t : Text) (target : Path)
    (place : Location) : Prop where
  noNul : path.hasNul = false
  readable : ∃ content, m.store.readFile m.here path = .ok content ∧
    b.charset.decode content = .ok t
  named : Sidecar.companion path = .ok target
  replaceable : m.Replaceable b.config.tempPrefix target place

theorem Ready.text_eq {t' : Text} {content : Bytes} (h : b.Ready m path t target place)
    (hread : m.store.readFile m.here path = .ok content)
    (hdecode : b.charset.decode content = .ok t') : t = t' := by
  obtain ⟨content', hread', hdecode'⟩ := h.readable
  obtain rfl : content' = content := Except.ok.inj (hread'.symm.trans hread)
  exact Except.ok.inj (hdecode'.symm.trans hdecode)

theorem Ready.updated (h : b.Ready m path t target place)
    (left : m.Left m' (m.store.set place (.file payload))) :
    m.store.Updated m'.store place (some (.file payload)) := by
  intro other
  rw [left.store]
  exact Store.node?_set m.store h.replaceable.writable.place_ne_nil _ other

theorem Ready.sameDirectories (h : b.Ready m path t target place)
    (left : m.Left m' (m.store.set place (.file payload))) :
    m.store.SameDirectories m'.store :=
  (h.updated left).sameDirectories h.replaceable.writable.noDirectory (by simp)

/-- A document that can take its updated text once the companion file is written. -/
def Takes (b : Backend) (m : Machine) (path : Path) (updated : Text) (octets : Bytes)
    (place : Location) : Prop :=
  b.charset.encode updated = .ok octets ∧ m.Replaceable b.config.tempPrefix path place

/-- The ways in which saving beside a document goes. -/
inductive SaveOutcome (b : Backend) (m : Machine) (path : Path) (payload : Bytes) :
    Except Failure Unit × Machine → Prop
  | refused {failure : Failure} (unready : ∀ t target place, ¬ b.Ready m path t target place) :
      SaveOutcome b m path payload (.error failure, m)
  | unchanged {t : Text} {target : Path} {place : Location} {m' : Machine}
      (ready : b.Ready m path t target place)
      (same : Sidecar.insertReference t target.name.toList = t)
      (left : m.Left m' (m.store.set place (.file payload))) :
      SaveOutcome b m path payload (.ok (), m')
  | linked {t : Text} {target : Path} {place document : Location} {octets : Bytes}
      {m₁ m' : Machine} (ready : b.Ready m path t target place)
      (other : Sidecar.insertReference t target.name.toList ≠ t)
      (left : m.Left m₁ (m.store.set place (.file payload)))
      (takes : b.Takes m₁ path (Sidecar.insertReference t target.name.toList) octets document)
      (left' : m₁.Left m' (m₁.store.set document (.file octets))) :
      SaveOutcome b m path payload (.ok (), m')
  | late {t : Text} {target : Path} {place : Location} {m' : Machine} {failure : Failure}
      (ready : b.Ready m path t target place)
      (other : Sidecar.insertReference t target.name.toList ≠ t)
      (left : m.Left m' (m.store.set place (.file payload)))
      (stuck : ∀ octets document,
        ¬ b.Takes m' path (Sidecar.insertReference t target.name.toList) octets document) :
      SaveOutcome b m path payload (.error failure, m')

theorem on_saveAt (hb : b.strategy = .sidecar) (path : Path) (payload : Bytes) (m : Machine) :
    on (b.saveAt path payload) m =
      on (Sidecar.write b.charset b.config.tempPrefix path payload >>= fun _ => pure ()) m := by
  rw [saveAt, hb]

theorem on_saveAt_of_not_ready (hb : b.strategy = .sidecar)
    (h : ∀ t target place, ¬ b.Ready m path t target place) (payload : Bytes) :
    ∃ failure, on (b.saveAt path payload) m = (.error failure, m) := by
  have hrefused : ∃ failure, on (Sidecar.write b.charset b.config.tempPrefix path payload) m =
      (.error failure, m) := by
    unfold Sidecar.write
    rcases hread : on (Files.read path) m with ⟨failure | content, m₁⟩
    · have hsame : m₁ = m := by
        have hsecond := on_read_unchanged path m
        rw [hread] at hsecond
        exact hsecond
      rw [hsame] at hread
      exact ⟨failure, on_bind_of_error hread⟩
    · obtain ⟨hnul, hcontent, rfl⟩ := on_read_eq_ok_iff.mp hread
      rw [on_bind_of_ok hread]
      cases hdecode : b.charset.decode content with
      | error fault => exact ⟨_, on_bind_of_error (on_decoded_of_error hdecode m₁)⟩
      | ok t =>
          obtain ⟨failure, hcompanion⟩ := on_writeCompanion_of_not_replaceable
            (fun target place htarget hreplaceable =>
              h t target place ⟨hnul, ⟨content, hcontent, hdecode⟩, htarget, hreplaceable⟩) payload
          refine ⟨failure, ?_⟩
          rw [on_bind_of_ok (on_decoded_of_ok hdecode m₁), on_bind_of_error hcompanion]
  obtain ⟨failure, hwrite⟩ := hrefused
  exact ⟨failure, by rw [on_saveAt hb, on_bind_of_error hwrite]⟩

/-- What is left to do once the companion file is written. -/
def link {μ : Type → Type} [Monad μ] [Host μ] (b : Backend) (path target : Path)
    (t updated : Text) : Run μ Path := do
  if updated ≠ t then
    let _ ← Files.replace b.config.tempPrefix path (← Sidecar.encoded b.charset updated)
  pure target

theorem on_link_of_eq (path target : Path) {updated : Text} (h : updated = t) (m : Machine) :
    on (b.link path target t updated) m = (.ok target, m) := by
  unfold link
  rw [if_neg (not_not_intro h)]
  rfl

theorem on_link_of_takes {updated : Text} {octets : Bytes} (hother : updated ≠ t)
    (h : b.Takes m path updated octets place) : on (b.link path target t updated) m =
      (.ok target, { m with store := m.store.set place (.file octets) }) := by
  unfold link
  rw [if_pos hother, on_bind_of_ok (on_encoded_of_ok h.1 m),
    on_bind_of_ok (on_replace_of_replaceable h.2 octets)]
  rfl

theorem on_link_of_stuck (target : Path) {updated : Text} (hother : updated ≠ t)
    (h : ∀ octets place, ¬ b.Takes m path updated octets place) :
    ∃ failure, on (b.link path target t updated) m = (.error failure, m) := by
  unfold link
  rw [if_pos hother]
  cases hencode : b.charset.encode updated with
  | error fault => exact ⟨_, on_bind_of_error (on_encoded_of_error hencode m)⟩
  | ok octets =>
      obtain ⟨failure, hreplace⟩ :=
        on_replace_of_not_replaceable (fun place hplace => h octets place ⟨hencode, hplace⟩) octets
      refine ⟨failure, ?_⟩
      rw [on_bind_of_ok (on_encoded_of_ok hencode m), on_bind_of_error hreplace]

/-- With the document read and its companion file written, the reference remains. -/
theorem on_saveAt_of_ready (hb : b.strategy = .sidecar) (h : b.Ready m path t target place)
    (payload : Bytes) :
    ∃ m', m.Left m' (m.store.set place (.file payload)) ∧
      on (b.saveAt path payload) m =
        on (b.link path target t (Sidecar.insertReference t target.name.toList) >>=
          fun _ => pure ()) m' := by
  obtain ⟨content, hcontent, hdecode⟩ := h.readable
  have hread : on (Files.read path) m = (.ok content, m) :=
    on_read_eq_ok_iff.mpr ⟨h.noNul, hcontent, rfl⟩
  obtain ⟨m₁, hcompanion, hleft⟩ :=
    on_writeCompanion_of_replaceable h.named h.replaceable payload
  have hnoted := on_noteAll (Sidecar.insertNotices t) m₁
  have hwrite : on (Sidecar.write b.charset b.config.tempPrefix path payload) m =
      on (b.link path target t (Sidecar.insertReference t target.name.toList))
        (m₁.noting (Sidecar.insertNotices t)) := by
    unfold Sidecar.write
    rw [on_bind_of_ok hread, on_bind_of_ok (on_decoded_of_ok hdecode m), on_bind_of_ok hcompanion]
    exact on_bind_of_ok hnoted
  refine ⟨m₁.noting (Sidecar.insertNotices t),
    ⟨hleft.store, hleft.here, hleft.fresh⟩, ?_⟩
  rw [on_saveAt hb, on_bind, hwrite, ← on_bind]

theorem saveOutcome (hb : b.strategy = .sidecar) (m : Machine) (path : Path) (payload : Bytes) :
    SaveOutcome b m path payload (on (b.saveAt path payload) m) := by
  by_cases hready : ∃ t target place, b.Ready m path t target place
  · obtain ⟨t, target, place, hready⟩ := hready
    obtain ⟨m₁, hleft, hsave⟩ := on_saveAt_of_ready hb hready payload
    rw [hsave]
    by_cases hsame : Sidecar.insertReference t target.name.toList = t
    · rw [on_bind_of_ok (on_link_of_eq path target hsame m₁), on_pure]
      exact .unchanged hready hsame hleft
    · by_cases htakes : ∃ octets document, b.Takes m₁ path
          (Sidecar.insertReference t target.name.toList) octets document
      · obtain ⟨octets, document, htakes⟩ := htakes
        rw [on_bind_of_ok (on_link_of_takes hsame htakes), on_pure]
        exact .linked hready hsame hleft htakes ⟨rfl, rfl, rfl⟩
      · have hstuck : ∀ octets document, ¬ b.Takes m₁ path
            (Sidecar.insertReference t target.name.toList) octets document :=
          fun octets document h => htakes ⟨octets, document, h⟩
        obtain ⟨failure, hlink⟩ := on_link_of_stuck target hsame hstuck
        rw [on_bind_of_error hlink]
        exact .late hready hsame hleft hstuck
  · have hunready : ∀ t target place, ¬ b.Ready m path t target place :=
      fun t target place h => hready ⟨t, target, place, h⟩
    obtain ⟨failure, hsave⟩ := on_saveAt_of_not_ready hb hunready payload
    rw [hsave]
    exact .refused hunready

end Backend

end PageManifest
