import PageManifest.Backend.Stream
import PageManifest.Platform.Bundled
import PageManifest.Proofs.Escaping
import PageManifest.Proofs.TemporaryNames

/-! # Streams and files

A backend works alike on a document in a stream and on one in a file.  Each form yields
what the other yields and does the same to all other files.  They differ in when they
write: a file is left alone if its text stays the same, a stream is replaced in any case.
So they part where the text of a document that is left alone is not read back from what it
is encoded as.
-/

namespace PageManifest

/-- The streams once the source is read. -/
def Streams.spent (s : Streams) : Streams :=
  { s with source := s.source.seek s.source.content.length }

namespace Run

variable {α β : Type} {m m' : Machine} {s : Streams} {failure : Failure} {a : α}

/-- What an operation on streams yields, and the streams and the machine that it leaves. -/
def onStreams (x : OnStreams (StateM Machine) α) (streams : Streams) (machine : Machine) :
    Except Failure α × Streams × Machine :=
  let outcome := x.run streams machine
  (outcome.1.1, outcome.1.2, outcome.2)

theorem on_map_of_ok {x : Run (StateM Machine) α} (h : on x m = (.ok a, m')) (f : α → β) :
    on (f <$> x) m = (.ok (f a), m') := by
  rw [on_map, h]
  rfl

theorem on_map_of_error {x : Run (StateM Machine) α} (h : on x m = (.error failure, m'))
    (f : α → β) : on (f <$> x) m = (.error failure, m') := by
  rw [on_map, h]
  rfl

theorem onStreams_apart (x : Run (StateM Machine) α) (s : Streams) (m : Machine) :
    onStreams (OnStreams.apart x) s m = ((on x m).1, s, (on x m).2) := rfl

theorem onStreams_source (s : Streams) (m : Machine) :
    onStreams OnStreams.source s m = (.ok s.source.content, s.spent, m) := by
  have hread : s.source.readAll = (s.source.content, s.spent.source) := s.source.readAll_eq
  change (Except.ok s.source.readAll.1, { s with source := s.source.readAll.2 }, m) = _
  rw [hread]
  rfl

theorem onStreams_replaceDestination (content : Bytes) (s : Streams) (m : Machine) :
    onStreams (OnStreams.replaceDestination content) s m =
      (.ok (), { s with destination := ⟨content, content.length⟩ }, m) := by
  rw [← s.destination.replace_eq content]
  rfl

section Bind

variable {x : OnStreams (StateM Machine) α} {s' : Streams}

theorem onStreams_bind (x : OnStreams (StateM Machine) α) (f : α → OnStreams (StateM Machine) β)
    (s : Streams) (m : Machine) : onStreams (x >>= f) s m = match onStreams x s m with
      | (.ok a, s', m') => onStreams (f a) s' m'
      | (.error failure, s', m') => (.error failure, s', m') := by
  have hrun : onStreams (x >>= f) s m = match x.run s m with
      | ((r, s'), m') => onStreams (ExceptT.mk (ExceptT.bindCont f r)) s' m' := rfl
  rw [hrun, onStreams]
  rcases x.run s m with ⟨⟨_ | _, s'⟩, m'⟩ <;> rfl

theorem onStreams_bind_of_ok (h : onStreams x s m = (.ok a, s', m'))
    (f : α → OnStreams (StateM Machine) β) :
    onStreams (x >>= f) s m = onStreams (f a) s' m' := by
  rw [onStreams_bind, h]

theorem onStreams_bind_of_error (h : onStreams x s m = (.error failure, s', m'))
    (f : α → OnStreams (StateM Machine) β) :
    onStreams (x >>= f) s m = (.error failure, s', m') := by
  rw [onStreams_bind, h]

end Bind

/-- What only reads the source goes as it does on the content of the source. -/
theorem onStreams_reading (x : Bytes → Run (StateM Machine) α) (s : Streams) (m : Machine) :
    onStreams (OnStreams.source >>= fun content => OnStreams.apart (x content)) s m =
      ((on (x s.source.content) m).1, s.spent, (on (x s.source.content) m).2) := by
  rw [onStreams_bind_of_ok (onStreams_source s m), onStreams_apart]

section Rewriting

variable {edit : Bytes → Run (StateM Machine) (Bytes × α)} {octets : Bytes}

/-- An edit that succeeds leaves its octets and nothing else in the destination. -/
theorem onStreams_rewriting_of_ok (h : on (edit s.source.content) m = (.ok (octets, a), m')) :
    onStreams (OnStreams.rewriting edit) s m =
      (.ok a, ⟨s.spent.source, ⟨octets, octets.length⟩⟩, m') := by
  have hedit : onStreams (OnStreams.apart (edit s.source.content)) s.spent m =
      (.ok (octets, a), s.spent, m') := by rw [onStreams_apart, h]
  rw [OnStreams.rewriting, onStreams_bind_of_ok (onStreams_source s m),
    onStreams_bind_of_ok hedit, onStreams_bind_of_ok (onStreams_replaceDestination octets _ _)]
  rfl

/-- An edit that fails does not touch the destination. -/
theorem onStreams_rewriting_of_error
    (h : on (edit s.source.content) m = (.error failure, m')) :
    onStreams (OnStreams.rewriting edit) s m = (.error failure, s.spent, m') := by
  have hedit : onStreams (OnStreams.apart (edit s.source.content)) s.spent m =
      (.error failure, s.spent, m') := by rw [onStreams_apart, h]
  rw [OnStreams.rewriting, onStreams_bind_of_ok (onStreams_source s m),
    onStreams_bind_of_error hedit]

theorem onStreams_rewriting_congr {x : Run (StateM Machine) (Bytes × α)}
    (h : on (edit s.source.content) m = on x m') : onStreams (OnStreams.rewriting edit) s m =
      onStreams (OnStreams.rewriting fun _ => x) s m' := by
  rcases hrun : on x m' with ⟨failure | ⟨octets, a⟩, m''⟩
  · rw [onStreams_rewriting_of_error (h.trans hrun)]
    exact (onStreams_rewriting_of_error hrun).symm
  · rw [onStreams_rewriting_of_ok (h.trans hrun)]
    exact (onStreams_rewriting_of_ok hrun).symm

end Rewriting

end Run

namespace Backend

open Run

variable {b : Backend} {m : Machine} {path target : Path} {content payload octets : Bytes}
  {t : Text} {place : Location} {s : Streams} {α : Type}

section Documents

variable [Platform]

/--
A backend for references that is made for a document, whose reference leads to no file or to
another one.
-/
structure MadeFor (b : Backend) (m : Machine) (path : Path) (place : Location) : Prop where
  base : b.base = path.parent
  document : b.document = some path
  elsewhere : ¬ b.LeadsTo m path place

/-- A document in a file that can be read and replaced, with its backend. -/
structure Hosted (b : Backend) (m : Machine) (path : Path) (content : Bytes)
    (place : Location) : Prop where
  noNul : path.hasNul = false
  read : m.store.readFile m.here path = .ok content
  replaceable : m.Replaceable b.config.tempPrefix path place
  madeFor : b.strategy = .sidecar → b.MadeFor m path place

/-- The octets of a document with a manifest. -/
def Embeds (b : Backend) (path : Path) (payload content octets : Bytes) : Prop :=
  ∃ t t', b.charset.decode content = .ok t ∧ updated b.strategy t path payload = .ok t' ∧
    b.charset.encode t' = .ok octets

/-- The octets of a document without its manifest, which a reference is no part of. -/
def Strips (b : Backend) (content octets : Bytes) : Prop :=
  match b.strategy with
  | .inline => ∃ t, b.charset.decode content = .ok t ∧
      b.charset.encode (Inline.remove t) = .ok octets
  | .sidecar => octets = content

/--
The ways in which an edit goes on streams and on the file of a document.  Both fail for the
same reason, or yield the same and make documents that are decoded alike.
-/
inductive Alike (b : Backend) (m : Machine) (path : Path) (place : Location) (s : Streams)
    (new : Bytes → Prop) : Except Failure α × Streams × Machine → Except Failure α × Machine → Prop
  | refused {failure : Failure} {m₁ m₂ : Machine} (same : m₂.store = m₁.store)
      (kept : m₁.store.node? place = m.store.node? place) :
      Alike b m path place s new (.error failure, s.spent, m₁) (.error failure, m₂)
  | edited {a : α} {octets held : Bytes} {m₁ m₂ : Machine}
      (others : ∀ other, other ≠ place → m₂.store.node? other = m₁.store.node? other)
      (kept : m₁.store.node? place = m.store.node? place) (made : new octets)
      (read : m₂.store.readFile m.here path = .ok held)
      (text : b.charset.decode octets = b.charset.decode held) :
      Alike b m path place s new (.ok a, ⟨s.spent.source, ⟨octets, octets.length⟩⟩, m₁)
        (.ok a, m₂)

/-- A document that has its reference already is encoded as octets from which it is read back. -/
def RepeatsLinked (b : Backend) (m : Machine) (path : Path) (content : Bytes) : Prop :=
  b.strategy = .sidecar → ∀ t, b.Document m path content t → ∀ target beside,
    b.Ready m path t target beside → Sidecar.insertReference t target.name.toList = t →
      b.charset.Encodable t ∧ b.charset.Recalls t

/-- A document without a manifest inside is read back from what it is encoded as, if it is. -/
def RepeatsBare (b : Backend) (m : Machine) (path : Path) (content : Bytes) : Prop :=
  b.strategy = .inline → ∀ t, b.Document m path content t → Inline.remove t = t →
    b.charset.Recalls t

/-- What is decoded by a coding that is written out goes out again as itself. -/
theorem repeats_codec {k : Charset.Codec} (hk : b.charset = .codec k) :
    b.RepeatsLinked m path content ∧ b.RepeatsBare m path content := by
  have hencodable : ∀ t, b.Document m path content t → b.charset.Encodable t := by
    intro t h
    have hdecode := h.decoded
    rw [hk] at hdecode ⊢
    exact Charset.encodable_codec
      (Charset.Codec.encodes_of_decode (Charset.decode_codec_eq_ok_iff.mp hdecode))
  have hrecalls : ∀ t, b.charset.Recalls t := by
    rw [hk]
    exact Charset.recalls_codec k
  exact ⟨fun _ t h _ _ _ _ => ⟨hencodable t h, hrecalls t⟩, fun _ t _ _ => hrecalls t⟩

/-! ## What is done with the text -/

/-- What writing to a stream does with the text of a document. -/
def composing (b : Backend) (path : Path) (payload : Bytes) (t : Text) :
    Run (StateM Machine) Bytes :=
  match b.strategy with
  | .inline => do
      Files.noteAll (Inline.embedNotices t)
      b.encoded (Inline.embed t payload)
  | .sidecar => do
      let target ← Sidecar.writeCompanion b.config.tempPrefix path payload
      Files.noteAll (Sidecar.insertNotices t)
      b.encoded (Sidecar.insertReference t target.name.toList)

theorem composing_inline (hb : b.strategy = .inline) (path : Path) (payload : Bytes) (t : Text) :
    b.composing path payload t = Files.noteAll (Inline.embedNotices t) >>= fun _ =>
      b.encoded (Inline.embed t payload) := by
  rw [composing, hb]

theorem composing_sidecar (hb : b.strategy = .sidecar) (path : Path) (payload : Bytes) (t : Text) :
    b.composing path payload t =
      Sidecar.writeCompanion b.config.tempPrefix path payload >>= fun target =>
        Files.noteAll (Sidecar.insertNotices t) >>= fun _ =>
          b.encoded (Sidecar.insertReference t target.name.toList) := by
  rw [composing, hb]

/-- What removing on streams does with the text of a document. -/
def omitting (b : Backend) (path : Path) (content : Bytes) (t : Text) :
    Run (StateM Machine) (Bytes × Bool) :=
  match b.strategy with
  | .inline => do
      let octets ← b.encoded (Inline.remove t)
      return (octets, decide (Inline.remove t ≠ t))
  | .sidecar => do
      let removed ← Sidecar.remove b.charset t path.parent
      return (content, removed)

theorem omitting_inline (hb : b.strategy = .inline) (path : Path) (content : Bytes) (t : Text) :
    b.omitting path content t = b.encoded (Inline.remove t) >>= fun octets =>
      pure (octets, decide (Inline.remove t ≠ t)) := by
  rw [omitting, hb]

theorem omitting_sidecar (hb : b.strategy = .sidecar) (path : Path) (content : Bytes) (t : Text) :
    b.omitting path content t = Sidecar.remove b.charset t path.parent >>= fun removed =>
      pure (content, removed) := by
  rw [omitting, hb]

theorem read_eq (h : b.strategy = .sidecar → b.base = path.parent) (content : Bytes) :
    (b.read content : Run (StateM Machine) Bytes) = b.readFrom path.parent content := by
  rw [read, readFrom, readFrom]
  refine bind_congr fun t => ?_
  cases hb : b.strategy with
  | inline => rfl
  | sidecar => simp only [h hb]

theorem hashRegions_eq (h : b.strategy = .sidecar → b.base = path.parent) (content : Bytes) :
    (b.hashRegions content : Run (StateM Machine) (List Region)) =
      b.hashRegionsFrom path.parent content := by
  rw [hashRegions, hashRegionsFrom, hashRegionsFrom]
  refine bind_congr fun t => ?_
  cases hb : b.strategy with
  | inline => rfl
  | sidecar => simp only [h hb]

theorem write_eq (h : b.strategy = .sidecar → b.document = some path) (content payload : Bytes) :
    b.write content payload = b.decoded content >>= b.composing path payload := by
  rw [write]
  cases hb : b.strategy with
  | inline => exact bind_congr fun t => (composing_inline hb path payload t).symm
  | sidecar =>
      simp only [h hb]
      exact bind_congr fun t => (composing_sidecar hb path payload t).symm

theorem remove_eq (h : b.strategy = .sidecar → b.base = path.parent) (content : Bytes) :
    b.remove content = b.decoded content >>= b.omitting path content := by
  rw [remove]
  refine bind_congr fun t => ?_
  rw [omitting]
  cases hb : b.strategy with
  | inline => rfl
  | sidecar => simp only [h hb]

theorem writeStream_eq (h : b.strategy = .sidecar → b.document = some path) (payload : Bytes) :
    (b.writeStream payload : OnStreams (StateM Machine) Unit) =
      OnStreams.rewriting fun content => (·, ()) <$> b.write content payload := by
  have hnamed : ¬ (b.strategy = .sidecar ∧ b.document = none) := by
    rintro ⟨hb, hnone⟩
    rw [h hb] at hnone
    cases hnone
  rw [writeStream, if_neg hnamed]

theorem on_link_of_error {updated : Text} {fault : Charset.Fault} (path target : Path)
    (hother : updated ≠ t) (h : b.charset.encode updated = .error fault) (m : Machine) :
    on (b.link path target t updated) m = (.error (.charset fault), m) := by
  unfold link
  rw [if_pos hother, on_bind_of_error (on_encoded_of_error h m)]

/-- Removing deletes at most one file, and no directory. -/
theorem sameDirectories_of_removeAt (hb : b.strategy = .sidecar) (m : Machine) (path : Path) :
    m.store.SameDirectories (on (b.removeAt path) m).2.store := by
  by_cases hsome : ∃ place, b.LeadsTo m path place
  · obtain ⟨place, hleads⟩ := hsome
    refine (hleads.updated hb).sameDirectories ?_ (by simp)
    obtain ⟨-, -, -, held, -, -, -, -, hnode⟩ := hleads
    rw [hnode]
    simp
  · rw [store_of_removeAt_of_nowhere hb fun place h => hsome ⟨place, h⟩]
    exact fun _ => Iff.rfl

namespace Hosted

/-! ## Both forms of an edit -/

theorem locate (h : b.Hosted m path content place) : m.store.locate m.here path = .ok place :=
  h.replaceable.writable.located

theorem node? (h : b.Hosted m path content place) :
    m.store.node? place = some (.file content) := by
  obtain ⟨place', hlocate, hnode⟩ := Store.readFile_eq_ok_iff.mp h.read
  obtain rfl := Except.ok.inj (hlocate.symm.trans h.locate)
  exact hnode

/-- The document is still found where it was as long as no directory comes or goes. -/
theorem readFile {after : Store} {held : Bytes} (h : b.Hosted m path content place)
    (hsame : m.store.SameDirectories after) (hnode : after.node? place = some (.file held)) :
    after.readFile m.here path = .ok held :=
  Store.readFile_eq_ok_iff.mpr ⟨place, Store.locate_congr hsame h.locate, hnode⟩

theorem on_read (h : b.Hosted m path content place) : on (Files.read path) m = (.ok content, m) :=
  on_read_eq_ok_iff.mpr ⟨h.noNul, h.read, rfl⟩

/-- Both forms of an edit fail alike on a document that cannot be decoded. -/
theorem alike_iff_of_text {new : Bytes → Prop} {edit : Bytes → Run (StateM Machine) (Bytes × α)}
    {f : Text → Run (StateM Machine) (Bytes × α)} {g : Text → Run (StateM Machine) α}
    {Q : Text → Prop} (h : b.Hosted m path content place) (hs : s.source.content = content)
    (hedit : edit content = b.decoded content >>= f)
    (hdone : ∀ t, b.Document m path content t → (Alike b m path place s new
      (onStreams (OnStreams.rewriting fun _ => f t) s m) (on (g t) m) ↔ Q t)) :
    Alike b m path place s new (onStreams (OnStreams.rewriting edit) s m)
      (on (b.opening path g) m) ↔ ∀ t, b.Document m path content t → Q t := by
  subst hs
  cases hdecode : b.charset.decode s.source.content with
  | error fault =>
      have hdecoded : on (b.decoded s.source.content) m = (.error (.charset fault), m) :=
        on_decoded_of_error hdecode m
      have hrun : on (edit s.source.content) m = (.error (.charset fault), m) := by
        rw [hedit, on_bind_of_error hdecoded]
      rw [onStreams_rewriting_of_error hrun, opening, on_bind_of_ok h.on_read,
        on_bind_of_error hdecoded]
      refine iff_of_true (.refused rfl rfl) fun t hdocument => ?_
      rw [hdocument.decoded] at hdecode
      cases hdecode
  | ok t =>
      have hdocument : b.Document m path s.source.content t := ⟨h.noNul, h.read, hdecode⟩
      have hdecoded : on (b.decoded s.source.content) m = (.ok t, m) := on_decoded_of_ok hdecode m
      have hrun : on (edit s.source.content) m = on (f t) m := by
        rw [hedit, on_bind_of_ok hdecoded]
      rw [hdocument.on_opening, onStreams_rewriting_congr hrun, hdone t hdocument]
      constructor
      · intro hdone t' hdocument'
        obtain ⟨-, rfl⟩ := hdocument.unique hdocument'
        exact hdone
      · intro hall
        exact hall t hdocument

/-- A document that is rewritten holds what the destination holds. -/
theorem alike_of_rewritten {new : Bytes → Prop} {a : α} {m₁ m₂ : Machine}
    (h : b.Hosted m path content place) (made : new octets)
    (hsame : m.store.SameDirectories m₁.store)
    (hkept : m₁.store.node? place = m.store.node? place)
    (hfile : m₂.store = m₁.store.set place (.file octets)) :
    Alike b m path place s new (.ok a, ⟨s.spent.source, ⟨octets, octets.length⟩⟩, m₁)
      (.ok a, m₂) := by
  have hwritable := h.replaceable.writable
  have hupdated : m₁.store.Updated m₂.store place (some (.file octets)) := by
    rw [hfile]
    exact Store.node?_set m₁.store hwritable.place_ne_nil _
  have hdirectories := hupdated.sameDirectories (hkept ▸ hwritable.noDirectory) (by simp)
  refine .edited ?_ hkept made (h.readFile (hsame.trans hdirectories) ?_) rfl
  · intro other hother
    rw [hupdated other, if_neg hother]
  · rw [hupdated place, if_pos rfl]

/-- Beside a file that is left alone, the destination has to be read as the text of the file. -/
theorem alike_of_untouched_iff {new : Bytes → Prop} {a : α} {m₁ m₂ : Machine}
    (h : b.Hosted m path content place) (hdecode : b.charset.decode content = .ok t)
    (made : new octets) (hsame : m.store.SameDirectories m₁.store)
    (hkept : m₁.store.node? place = m.store.node? place) (hfile : m₂.store = m₁.store) :
    Alike b m path place s new (.ok a, ⟨s.spent.source, ⟨octets, octets.length⟩⟩, m₁)
      (.ok a, m₂) ↔ b.charset.decode octets = .ok t := by
  have hread : m₂.store.readFile m.here path = .ok content := by
    rw [hfile]
    exact h.readFile hsame (hkept.trans h.node?)
  constructor
  · intro halike
    cases halike with
    | @edited _ _ held _ _ others kept made read text =>
        obtain rfl : held = content := Except.ok.inj (read.symm.trans hread)
        exact text.trans hdecode
  · intro htext
    refine .edited ?_ hkept made hread (htext.trans hdecode.symm)
    intro other _
    rw [hfile]

/-! ## Inside a document -/

theorem alike_embedding (hb : b.strategy = .inline) (h : b.Hosted m path content place)
    (hdocument : b.Document m path content t) (s : Streams) (payload : Bytes) :
    Alike b m path place s (b.Embeds path payload content)
      (onStreams (OnStreams.rewriting fun _ => (·, ()) <$> b.composing path payload t) s m)
      (on (b.embedding path payload t) m) := by
  have hnoted := on_noteAll (Inline.embedNotices t) m
  have hstream : on (b.composing path payload t) m =
      on (b.encoded (Inline.embed t payload)) (m.noting (Inline.embedNotices t)) := by
    rw [composing_inline hb, on_bind_of_ok hnoted]
  rw [embedding, on_bind_of_ok hnoted]
  cases hencode : b.charset.encode (Inline.embed t payload) with
  | error fault =>
      have hencoded : on (b.encoded (Inline.embed t payload)) (m.noting (Inline.embedNotices t)) =
          (.error (.charset fault), _) := on_encoded_of_error hencode _
      rw [onStreams_rewriting_of_error (on_map_of_error (hstream.trans hencoded) _),
        on_bind_of_error hencoded]
      exact .refused rfl rfl
  | ok octets =>
      have hencoded : on (b.encoded (Inline.embed t payload)) (m.noting (Inline.embedNotices t)) =
          (.ok octets, _) := on_encoded_of_ok hencode _
      have htakes : b.Takes (m.noting (Inline.embedNotices t)) path (Inline.embed t payload) octets
          place := ⟨hencode, (m.left_noting _).replaceable h.replaceable⟩
      have hmade : b.Embeds path payload content octets := by
        refine ⟨t, _, hdocument.decoded, ?_, hencode⟩
        rw [hb]
        rfl
      rw [onStreams_rewriting_of_ok (on_map_of_ok (hstream.trans hencoded) _),
        htakes.on_rewriting, on_noteAll]
      exact h.alike_of_rewritten hmade (fun _ => Iff.rfl) rfl rfl

/-- Without a manifest to be dropped, the document is encoded anew in the destination. -/
theorem alike_thinning_iff (hb : b.strategy = .inline) (h : b.Hosted m path content place)
    (hdocument : b.Document m path content t) (s : Streams) :
    Alike b m path place s (b.Strips content)
      (onStreams (OnStreams.rewriting fun _ => b.omitting path content t) s m)
      (on (b.thinning path t) m) ↔ (Inline.remove t = t → b.charset.Recalls t) := by
  rw [thinning, omitting_inline hb]
  cases hencode : b.charset.encode (Inline.remove t) with
  | error fault =>
      have hencoded : on (b.encoded (Inline.remove t)) m = (.error (.charset fault), m) :=
        on_encoded_of_error hencode m
      rw [onStreams_rewriting_of_error (on_bind_of_error hencoded), on_bind_of_error hencoded]
      refine iff_of_true (.refused rfl rfl) fun hsame bytes hbytes => ?_
      rw [hsame, hbytes] at hencode
      cases hencode
  | ok octets =>
      have hencoded : on (b.encoded (Inline.remove t)) m = (.ok octets, m) :=
        on_encoded_of_ok hencode m
      have hmade : b.Strips content octets := by
        rw [Strips, hb]
        exact ⟨t, hdocument.decoded, hencode⟩
      rw [onStreams_rewriting_of_ok
        ((on_bind_of_ok hencoded).trans (on_pure (octets, decide (Inline.remove t ≠ t)) m))]
      by_cases hsame : Inline.remove t = t
      · simp only [if_neg (not_not_intro hsame), decide_eq_false (not_not_intro hsame)]
        rw [on_bind_of_ok hencoded, on_pure,
          h.alike_of_untouched_iff hdocument.decoded hmade (fun _ => Iff.rfl) rfl rfl]
        rw [hsame] at hencode
        exact ⟨fun htext _ => (Charset.recalls_iff_of_encode hencode).mpr htext,
          fun hrecalls => hrecalls hsame octets hencode⟩
      · have htakes : b.Takes m path (Inline.remove t) octets place := ⟨hencode, h.replaceable⟩
        simp only [if_pos hsame, decide_eq_true hsame]
        rw [htakes.on_rewriting, on_bind_of_ok (on_noteAll _ _), on_pure]
        exact iff_of_true (h.alike_of_rewritten hmade (fun _ => Iff.rfl) rfl rfl)
          fun hsettled => absurd hsettled hsame

/-! ## Beside a document -/

/-- With the companion file written, a document that lacks its reference can still be replaced. -/
theorem takes_behind_companion {beside : Location} {m₁ : Machine} {updated : Text}
    (h : b.Hosted m path content place) (hready : b.Ready m path t target beside)
    (left : m.Left m₁ (m.store.set beside (.file payload)))
    (hencode : b.charset.encode updated = .ok octets) : b.Takes m₁ path updated octets place := by
  have hup : path.name ≠ ".." := fun hup => h.replaceable.writable.named (.inr hup)
  obtain ⟨document, hreplaceable⟩ := (replaceable_behind_companion hready left).mpr hup
  have hlocated := Store.locate_congr (hready.sameDirectories left) h.locate
  rw [← left.here, hreplaceable.writable.located] at hlocated
  obtain rfl := Except.ok.inj hlocated
  exact ⟨hencode, hreplaceable⟩

/-- The document is rewritten for its reference only, the destination in any case. -/
theorem alike_link_iff {beside : Location} {m₁ : Machine} (hb : b.strategy = .sidecar)
    (hdot : path.name ≠ ".") (h : b.Hosted m path content place)
    (hready : b.Ready m path t target beside) (hdecode : b.charset.decode content = .ok t)
    (left : m.Left m₁ (m.store.set beside (.file payload))) (s : Streams) :
    Alike b m path place s (b.Embeds path payload content)
      (onStreams (OnStreams.rewriting fun _ => (·, ()) <$>
        b.encoded (Sidecar.insertReference t target.name.toList)) s m₁)
      (on (b.link path target t (Sidecar.insertReference t target.name.toList) >>=
        fun _ => pure ()) m₁) ↔ (Sidecar.insertReference t target.name.toList = t →
          b.charset.Encodable t ∧ b.charset.Recalls t) := by
  have hapart : place ≠ beside := place_ne_of_companion hdot hready.named h.locate
    hready.replaceable.writable.located
  have hkept : m₁.store.node? place = m.store.node? place := by
    rw [hready.updated left, if_neg hapart]
  cases hencode : b.charset.encode (Sidecar.insertReference t target.name.toList) with
  | error fault =>
      rw [onStreams_rewriting_of_error (on_map_of_error (on_encoded_of_error hencode m₁) _)]
      by_cases hsame : Sidecar.insertReference t target.name.toList = t
      · rw [on_bind_of_ok (on_link_of_eq path target hsame m₁), on_pure]
        refine iff_of_false ?_ fun hreturns => ?_
        · intro halike
          cases halike
        · obtain ⟨⟨bytes, hbytes⟩, -⟩ := hreturns hsame
          rw [hsame, hbytes] at hencode
          cases hencode
      · rw [on_bind_of_error (on_link_of_error path target hsame hencode m₁)]
        exact iff_of_true (.refused rfl hkept) fun hsettled => absurd hsettled hsame
  | ok octets =>
      have hmade : b.Embeds path payload content octets :=
        ⟨t, _, hdecode, updated_sidecar hb hready.named t payload, hencode⟩
      rw [onStreams_rewriting_of_ok (on_map_of_ok (on_encoded_of_ok hencode m₁) _)]
      by_cases hsame : Sidecar.insertReference t target.name.toList = t
      · rw [on_bind_of_ok (on_link_of_eq path target hsame m₁), on_pure,
          h.alike_of_untouched_iff hdecode hmade (hready.sameDirectories left) hkept rfl]
        rw [hsame] at hencode
        rw [← Charset.recalls_iff_of_encode hencode]
        exact ⟨fun hrecalls _ => ⟨⟨octets, hencode⟩, hrecalls⟩, fun hreturns => (hreturns hsame).2⟩
      · have htakes := h.takes_behind_companion hready left hencode
        rw [on_bind_of_ok (on_link_of_takes hsame htakes), on_pure]
        exact iff_of_true (h.alike_of_rewritten hmade (hready.sameDirectories left) hkept rfl)
          fun hsettled => absurd hsettled hsame

theorem alike_pairing_iff_of_ready {beside : Location} (hb : b.strategy = .sidecar)
    (hdot : path.name ≠ ".") (h : b.Hosted m path content place)
    (hready : b.Ready m path t target beside) (hdecode : b.charset.decode content = .ok t)
    (s : Streams) (payload : Bytes) :
    Alike b m path place s (b.Embeds path payload content)
      (onStreams (OnStreams.rewriting fun _ => (·, ()) <$> b.composing path payload t) s m)
      (on (b.pairing path payload t) m) ↔ (Sidecar.insertReference t target.name.toList = t →
        b.charset.Encodable t ∧ b.charset.Recalls t) := by
  obtain ⟨m₁, hcompanion, left⟩ :=
    on_writeCompanion_of_replaceable hready.named hready.replaceable payload
  have hnoted := on_noteAll (Sidecar.insertNotices t) m₁
  have left' : m.Left (m₁.noting (Sidecar.insertNotices t))
      (m.store.set beside (.file payload)) := ⟨left.store, left.here, left.fresh⟩
  have hcomposed : on (b.composing path payload t) m =
      on (b.encoded (Sidecar.insertReference t target.name.toList))
        (m₁.noting (Sidecar.insertNotices t)) := by
    rw [composing_sidecar hb, on_bind_of_ok hcompanion, on_bind_of_ok hnoted]
  have hedit : on ((·, ()) <$> b.composing path payload t) m =
      on ((·, ()) <$> b.encoded (Sidecar.insertReference t target.name.toList))
        (m₁.noting (Sidecar.insertNotices t)) := by
    rw [on_map, on_map, hcomposed]
  rw [pairing, onStreams_rewriting_congr hedit, on_bind_of_ok hcompanion, on_bind_of_ok hnoted]
  exact h.alike_link_iff hb hdot hready hdecode left' s

theorem alike_pairing_iff (hb : b.strategy = .sidecar) (hdot : path.name ≠ ".")
    (h : b.Hosted m path content place) (hdocument : b.Document m path content t) (s : Streams)
    (payload : Bytes) :
    Alike b m path place s (b.Embeds path payload content)
      (onStreams (OnStreams.rewriting fun _ => (·, ()) <$> b.composing path payload t) s m)
      (on (b.pairing path payload t) m) ↔ ∀ target beside, b.Ready m path t target beside →
        Sidecar.insertReference t target.name.toList = t →
          b.charset.Encodable t ∧ b.charset.Recalls t := by
  by_cases hplace : ∃ target beside, b.Ready m path t target beside
  · obtain ⟨target, beside, hready⟩ := hplace
    rw [h.alike_pairing_iff_of_ready hb hdot hready hdocument.decoded s payload]
    constructor
    · intro hreturns target' beside' hready'
      obtain ⟨-, rfl, -⟩ := hready.unique hready'
      exact hreturns
    · intro hall
      exact hall target beside hready
  · have hunplaced : ∀ target beside, Sidecar.companion path = .ok target →
        ¬ m.Replaceable b.config.tempPrefix target beside :=
      fun target beside hnamed hreplaceable => hplace ⟨target, beside, h.noNul,
        ⟨content, h.read, hdocument.decoded⟩, hnamed, hreplaceable⟩
    obtain ⟨failure, hcompanion⟩ := on_writeCompanion_of_not_replaceable hunplaced payload
    rw [composing_sidecar hb, pairing,
      onStreams_rewriting_of_error (on_map_of_error (on_bind_of_error hcompanion) _),
      on_bind_of_error hcompanion]
    exact iff_of_true (.refused rfl rfl) fun target beside hready =>
      absurd ⟨target, beside, hready⟩ hplace

theorem alike_unlinking (hb : b.strategy = .sidecar) (h : b.Hosted m path content place)
    (hdocument : b.Document m path content t) (s : Streams) :
    Alike b m path place s (b.Strips content)
      (onStreams (OnStreams.rewriting fun _ => b.omitting path content t) s m)
      (on (b.unlinking path t) m) := by
  have hmade : b.Strips content content := by
    rw [Strips, hb]
  -- What a removal does to files is known of the path form, and both forms do the same.
  have hkept : (on (b.removeAt path) m).2.store.node? place = m.store.node? place :=
    Classical.not_not.mp (mt (changed_by_removeAt_iff hb place).mp (h.madeFor hb).elsewhere)
  have hsame := sameDirectories_of_removeAt hb m path
  rw [removeAt_sidecar hb, hdocument.on_opening] at hkept hsame
  rw [omitting_sidecar hb]
  rcases hremove : on (Sidecar.remove b.charset t path.parent) m with ⟨failure | removed, m₁⟩
  · rw [unlinking, on_bind_of_error hremove] at hkept ⊢
    rw [onStreams_rewriting_of_error (on_bind_of_error hremove)]
    exact .refused rfl hkept
  · have hdone : ∃ m₂, on (b.unlinking path t) m = (.ok removed, m₂) ∧ m₂.store = m₁.store := by
      rw [unlinking, on_bind_of_ok hremove]
      cases removed with
      | true => exact ⟨_, (on_bind_of_ok (on_noteAll _ m₁)).trans (on_pure _ _), rfl⟩
      | false => exact ⟨_, on_pure _ _, rfl⟩
    obtain ⟨m₂, hfile, hstore⟩ := hdone
    rw [hfile, hstore] at hkept hsame
    rw [hfile, onStreams_rewriting_of_ok
      ((on_bind_of_ok hremove).trans (on_pure (content, removed) m₁))]
    exact (h.alike_of_untouched_iff hdocument.decoded hmade hsame hkept hstore).mpr
      hdocument.decoded

/-! ## All operations -/

theorem onStreams_readStream (h : b.Hosted m path content place) (hs : s.source.content = content) :
    onStreams b.readStream s m =
      ((on (b.readAt path) m).1, s.spent, (on (b.readAt path) m).2) := by
  have hbase := read_eq (fun hb => (h.madeFor hb).base) content
  have hfile : on (b.readAt path) m = on (b.readFrom path.parent content) m :=
    on_bind_of_ok h.on_read
  rw [readStream, onStreams_reading, hs, hbase, hfile]

theorem onStreams_hashRegionsStream (h : b.Hosted m path content place)
    (hs : s.source.content = content) : onStreams b.hashRegionsStream s m =
      ((on (b.hashRegionsAt path) m).1, s.spent, (on (b.hashRegionsAt path) m).2) := by
  have hbase := hashRegions_eq (fun hb => (h.madeFor hb).base) content
  have hfile : on (b.hashRegionsAt path) m = on (b.hashRegionsFrom path.parent content) m :=
    on_bind_of_ok h.on_read
  rw [hashRegionsStream, onStreams_reading, hs, hbase, hfile]

theorem alike_write_iff (hdot : path.name ≠ ".") (h : b.Hosted m path content place)
    (hs : s.source.content = content) (payload : Bytes) :
    Alike b m path place s (b.Embeds path payload content)
      (onStreams (b.writeStream payload) s m) (on (b.saveAt path payload) m) ↔
        b.RepeatsLinked m path content := by
  have hedit : (·, ()) <$> b.write content payload =
      b.decoded content >>= fun t => (·, ()) <$> b.composing path payload t := by
    rw [write_eq fun hb => (h.madeFor hb).document, map_bind]
  rw [writeStream_eq fun hb => (h.madeFor hb).document, RepeatsLinked]
  cases hb : b.strategy with
  | inline =>
      rw [saveAt_inline hb, h.alike_iff_of_text (Q := fun _ => True) hs hedit fun t ht =>
        iff_of_true (h.alike_embedding hb ht s payload) trivial]
      simp
  | sidecar =>
      rw [saveAt_sidecar hb, h.alike_iff_of_text hs hedit fun t ht =>
        h.alike_pairing_iff hb hdot ht s payload]
      simp

theorem alike_remove_iff (h : b.Hosted m path content place) (hs : s.source.content = content) :
    Alike b m path place s (b.Strips content) (onStreams b.removeStream s m)
      (on (b.removeAt path) m) ↔ b.RepeatsBare m path content := by
  have hedit := remove_eq (fun hb => (h.madeFor hb).base) content
  rw [removeStream, RepeatsBare]
  cases hb : b.strategy with
  | inline =>
      rw [removeAt_inline hb, h.alike_iff_of_text hs hedit fun t ht => h.alike_thinning_iff hb ht s]
      simp
  | sidecar =>
      rw [removeAt_sidecar hb, h.alike_iff_of_text (Q := fun _ => True) hs hedit fun t ht =>
        iff_of_true (h.alike_unlinking hb ht s) trivial]
      simp

end Hosted

/--
What is done with a document on streams goes as it does with the document in its file,
wherever the streams stand and whatever the destination holds.  Reading and measuring yield
the same and leave the destination.  Writing and removing are `Alike` exactly if a document
that the other form leaves alone is encoded as octets from which it is read back, which the
codings that are written out grant.
-/
theorem streams_agree_with_files_iff {w : Text} (h : b.Hosted m (Path.ofText w) content place)
    (s : Streams) (hs : s.source.content = content) :
    onStreams b.readStream s m =
        ((on (b.readAt (Path.ofText w)) m).1, s.spent, (on (b.readAt (Path.ofText w)) m).2) ∧
    onStreams b.hashRegionsStream s m =
        ((on (b.hashRegionsAt (Path.ofText w)) m).1, s.spent,
          (on (b.hashRegionsAt (Path.ofText w)) m).2) ∧
    (∀ payload, Alike b m (Path.ofText w) place s (b.Embeds (Path.ofText w) payload content)
      (onStreams (b.writeStream payload) s m) (on (b.saveAt (Path.ofText w) payload) m) ↔
        b.RepeatsLinked m (Path.ofText w) content) ∧
    (Alike b m (Path.ofText w) place s (b.Strips content) (onStreams b.removeStream s m)
      (on (b.removeAt (Path.ofText w)) m) ↔ b.RepeatsBare m (Path.ofText w) content) ∧
    ∀ k, b.charset = .codec k → b.RepeatsLinked m (Path.ofText w) content ∧
      b.RepeatsBare m (Path.ofText w) content :=
  ⟨h.onStreams_readStream hs, h.onStreams_hashRegionsStream hs,
    h.alike_write_iff (Path.name_ofText w).1 hs, h.alike_remove_iff hs, fun _ => repeats_codec⟩

end Documents

section Bundled

attribute [local instance] Platform.bundled

def swappedSidecar : Backend :=
  Command.backendOf { Config.standard with strategy := .sidecar, encoding := "utf-16" } pagePath

/-- A document that has its reference, in the octet order that is not written. -/
def swappedContent : Bytes :=
  [0xfe, 0xff] ++ (Charset.Codec.utf16Fixed .big).body (referringText "page.html.c2pa")

def swappedMachine : Machine :=
  Machine.start ⟨[(["page.html"], .file swappedContent), (["page.html.c2pa"], .file [1])]⟩ []
    [.sample]

/-- Streams that are not at their starts. -/
def swappedStreams : Streams :=
  ⟨⟨swappedContent, 7⟩, ⟨List.replicate 500 0, 3⟩⟩

theorem hosted_swapped :
    swappedSidecar.Hosted swappedMachine pagePath swappedContent ["page.html"] := by
  have hdocument : swappedSidecar.Document swappedMachine pagePath swappedContent
      (referringText "page.html.c2pa") :=
    ⟨by decide +kernel, eq_ok_of_toOption (by decide +kernel),
      eq_ok_of_toOption (by decide +kernel)⟩
  have htemporaries : swappedMachine.temporaries swappedSidecar.config.tempPrefix pagePath =
      [⟨.slash, ["c2pa_tempdrawn_10"]⟩] := by decide +kernel
  have hfree : swappedMachine.Free ⟨.slash, ["c2pa_tempdrawn_10"]⟩ ["c2pa_tempdrawn_10"] :=
    ⟨by decide +kernel, eq_ok_of_toOption (by decide +kernel), by decide +kernel⟩
  refine ⟨hdocument.noNul, hdocument.read, .of_free htemporaries hfree ?_,
    fun _ => ⟨rfl, rfl, ?_⟩⟩
  · exact ⟨by decide +kernel, eq_ok_of_toOption (by decide +kernel), by decide +kernel,
      by decide +kernel⟩
  · intro hleads
    have hreferred : Sidecar.locate swappedSidecar.charset (referringText "page.html.c2pa")
        pagePath.parent = .ok ⟨.none, ["page.html.c2pa"]⟩ := eq_ok_of_toOption (by decide +kernel)
    obtain ⟨target, htarget, hlocate⟩ := hleads.exists_target hdocument
    obtain rfl := Except.ok.inj (htarget.symm.trans hreferred)
    exact absurd (congrArg Except.toOption hlocate) (by decide +kernel)

-- The file is left alone, and the destination gets its text in the octet order that is written.
theorem streams_agree_with_files_swapped :
    (on (swappedSidecar.saveAt (Path.ofText "page.html".toList) [2]) swappedMachine).1 = .ok () ∧
    (onStreams (swappedSidecar.writeStream [2]) swappedStreams swappedMachine).2.1.destination ≠
      ⟨swappedContent, swappedContent.length⟩ ∧
    swappedSidecar.Alike swappedMachine (Path.ofText "page.html".toList) ["page.html"]
      swappedStreams
      (swappedSidecar.Embeds (Path.ofText "page.html".toList) [2] swappedContent)
      (onStreams (swappedSidecar.writeStream [2]) swappedStreams swappedMachine)
      (on (swappedSidecar.saveAt (Path.ofText "page.html".toList) [2]) swappedMachine) := by
  have hpath : Path.ofText "page.html".toList = pagePath := by decide +kernel
  obtain ⟨-, -, hwrite, -, hcodec⟩ := streams_agree_with_files_iff (w := "page.html".toList)
    (hpath ▸ hosted_swapped) swappedStreams rfl
  exact ⟨eq_ok_of_toOption (by decide +kernel), by decide +kernel,
    (hwrite [2]).mpr (hcodec .utf16 (charset_of_codecOf? (by decide +kernel))).1⟩

def escapeInline : Backend :=
  ⟨.inline, { Config.standard with encoding := "raw-unicode-escape" }, ⟨.none, []⟩, none⟩

/-- A text that is an escape in its encoding, written with its backslash escaped. -/
def escapedContent : Bytes :=
  Charset.Codec.ascii.body "\\u005cu0041".toList

def escapedMachine : Machine :=
  Machine.start ⟨[(["page.html"], .file escapedContent)]⟩ [] [.sample]

def escapedStreams : Streams :=
  ⟨⟨escapedContent, 0⟩, ⟨[], 0⟩⟩

/-- Nothing is removed in either form, but the stream gets octets that are read as another text. -/
theorem streams_part_from_files :
    escapeInline.Hosted escapedMachine pagePath escapedContent ["page.html"] ∧
    (onStreams escapeInline.removeStream escapedStreams escapedMachine).1 = .ok false ∧
    escapeInline.charset.decode (onStreams escapeInline.removeStream escapedStreams
      escapedMachine).2.1.destination.content = .ok "A".toList ∧
    (on (escapeInline.removeAt pagePath) escapedMachine).1 = .ok false ∧
    escapeInline.charset.decode escapedContent = .ok "\\u0041".toList ∧
    ¬ Alike escapeInline escapedMachine pagePath ["page.html"] escapedStreams
      (escapeInline.Strips escapedContent)
      (onStreams escapeInline.removeStream escapedStreams escapedMachine)
      (on (escapeInline.removeAt pagePath) escapedMachine) := by
  have hdocument : escapeInline.Document escapedMachine pagePath escapedContent
      "\\u0041".toList :=
    ⟨by decide +kernel, eq_ok_of_toOption (by decide +kernel),
      eq_ok_of_toOption (by decide +kernel)⟩
  have htemporaries : escapedMachine.temporaries escapeInline.config.tempPrefix pagePath =
      [⟨.slash, ["c2pa_tempdrawn_10"]⟩] := by decide +kernel
  have hfree : escapedMachine.Free ⟨.slash, ["c2pa_tempdrawn_10"]⟩ ["c2pa_tempdrawn_10"] :=
    ⟨by decide +kernel, eq_ok_of_toOption (by decide +kernel), by decide +kernel⟩
  have hosted : escapeInline.Hosted escapedMachine pagePath escapedContent ["page.html"] :=
    ⟨hdocument.noNul, hdocument.read, .of_free htemporaries hfree ⟨by decide +kernel,
      eq_ok_of_toOption (by decide +kernel), by decide +kernel, by decide +kernel⟩,
      fun hb => by cases hb⟩
  refine ⟨hosted, eq_ok_of_toOption (by decide +kernel), eq_ok_of_toOption (by decide +kernel),
    eq_ok_of_toOption (by decide +kernel), hdocument.decoded, ?_⟩
  rw [hosted.alike_remove_iff rfl]
  intro hrepeats
  have hencode : escapeInline.charset.encode "\\u0041".toList =
      .ok (Charset.Codec.ascii.body "\\u0041".toList) := eq_ok_of_toOption (by decide +kernel)
  have hread := hrepeats rfl _ hdocument (by decide +kernel) _ hencode
  exact absurd (congrArg Except.toOption hread) (by decide +kernel)

end Bundled

end Backend

end PageManifest
