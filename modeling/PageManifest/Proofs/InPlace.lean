import PageManifest.Platform.Bundled
import PageManifest.Proofs.History
import PageManifest.Proofs.Partition
import PageManifest.Proofs.Recoding
import PageManifest.Proofs.Removal
import PageManifest.Proofs.Setbacks

/-! # Edits in place

An inline backend rewrites a document around its manifest elements.  What it keeps
it keeps octet for octet: a document whose octets are the encoded form of its text
falls into encoded parts, and an edit puts some of them together again.
-/

namespace PageManifest

open Markup Run

namespace Markup.Element

theorem here?_blank_cons {c : Char} (hc : Text.isBlank c = true) (t : Text) :
    here? (c :: t) = none := by
  cases h : here? (c :: t) with
  | none => rfl
  | some found =>
      obtain ⟨hcut, he⟩ := here?_eq_some_iff.mp h
      obtain ⟨tail, htail⟩ := text_lt_head he
      rw [htail, List.cons_append, List.cons.injEq] at hcut
      rw [hcut.1] at hc
      cases hc

theorem all_of_none {t : Text} (h : find? t = none) : all t = [] := by
  rw [all_eq, h]

theorem all_of_some {t : Text} {f : Text.Found Element} (h : find? t = some f) :
    all t = f.item :: all f.after := by
  rw [all_eq, h]

theorem all_blank_cons {c : Char} (hc : Text.isBlank c = true) (t : Text) :
    all (c :: t) = all t := by
  cases h : find? t with
  | none =>
      have hsilent := find?_eq_none_iff.mp h
      have hnone : find? (c :: t) = none := find?_eq_none_iff.mpr
        (Text.silent_cons_iff.mpr ⟨here?_blank_cons hc _, hsilent⟩)
      rw [all_of_none h, all_of_none hnone]
  | some f =>
      obtain ⟨ht, he, hs⟩ := find?_eq_some_iff.mp h
      have hsome : find? (c :: t) = some ⟨c :: f.before, f.item, f.after⟩ := by
        refine find?_eq_some_iff.mpr ⟨?_, he, ?_⟩
        · rw [ht]
          rfl
        · exact Text.silent_cons_iff.mpr ⟨here?_blank_cons hc _, hs⟩
      rw [all_of_some h, all_of_some hsome]

/-- Blanks in front of a document hide none of its elements. -/
theorem all_trimStart (t : Text) : all (Text.trimStart t) = all t := by
  induction t with
  | nil => rfl
  | cons c t ih =>
      cases hc : Text.isBlank c with
      | true => rw [Text.trimStart_cons_of_blank hc, ih, all_blank_cons hc]
      | false => rw [Text.trimStart_cons_of_not_blank hc]

end Markup.Element

namespace Inline

/-! ## What an edit drops -/

/-- What embedding drops of a document with these elements: the first with the blanks around it. -/
inductive Dropped : List Element → Text → Prop
  | blanks {middle : Text} (blank : ∀ c ∈ middle, Text.isBlank c = true) : Dropped [] middle
  | element {before behind : Text} (e : Element) (others : List Element)
      (blank : ∀ c ∈ before, Text.isBlank c = true)
      (blank' : ∀ c ∈ behind, Text.isBlank c = true) :
      Dropped (e :: others) (before ++ (e.text ++ behind))

/-- The pieces of a document between its elements and the blanks that adjoin these. -/
inductive Outside : List Element → Text → List Text → Prop
  | whole (t : Text) : Outside [] t [t]
  | cut {piece before behind rest : Text} {e : Element} {others : List Element}
      {pieces : List Text} (tight : Text.trimEnd piece = piece)
      (blank : ∀ c ∈ before, Text.isBlank c = true)
      (blank' : ∀ c ∈ behind, Text.isBlank c = true) (tight' : Text.trimStart rest = rest)
      (outside : Outside others rest pieces) :
      Outside (e :: others) (piece ++ (before ++ (e.text ++ (behind ++ rest)))) (piece :: pieces)

theorem exists_dropped (t : Text) :
    ∃ middle, t = lead t ++ (middle ++ rest t) ∧ Dropped (Element.all t) middle := by
  unfold lead rest
  cases hf : Element.find? t with
  | none =>
      obtain ⟨blanks, hcut, hblanks⟩ := front_append_back t
      rw [Element.all_of_none hf]
      exact ⟨blanks, hcut, .blanks hblanks⟩
  | some f =>
      obtain ⟨before, ht, hbefore, -⟩ := Element.find?_cut hf
      obtain ⟨behind, hafter, hbehind⟩ := Text.blanks_append_trimStart f.after
      rw [Element.all_of_some hf]
      refine ⟨before ++ (f.item.text ++ behind), ?_, .element f.item _ hbefore hbehind⟩
      simp only [List.append_assoc, ← hafter]
      exact ht

theorem outside_pieces (t : Text) : Outside (Element.all t) t (pieces t) := by
  induction t using pieces.induct with
  | case1 t h =>
      rw [Element.all_of_none h, pieces_of_none h]
      exact .whole t
  | case2 t f h ih =>
      obtain ⟨before, ht, hbefore, -⟩ := Element.find?_cut h
      obtain ⟨behind, hafter, hbehind⟩ := Text.blanks_append_trimStart f.after
      rw [Element.all_trimStart] at ih
      have hcut := Outside.cut (e := f.item) (Text.trimEnd_of_tight (Text.tight_trimEnd f.before))
        hbefore hbehind (Text.trimStart_trimStart f.after) ih
      rw [← hafter, ← ht] at hcut
      rw [Element.all_of_some h, pieces_of_some h]
      exact hcut

/-! ## Edits of encoded documents -/

section Encoded

variable {k : Charset.Codec} {t : Text} {payload content octets : Bytes}

/-- A front and a back of the old octets, with the octets of the written element in between. -/
def Spliced (k : Charset.Codec) (t : Text) (payload content octets : Bytes) : Prop :=
  ∃ front middle back, content = front ++ (k.body middle ++ back) ∧
    octets = front ++ (k.body (tag payload) ++ back) ∧ Dropped (Element.all t) middle

/-- The mark and the octets of the pieces outside the elements, in their order. -/
def Thinned (k : Charset.Codec) (t : Text) (content octets : Bytes) : Prop :=
  ∃ pieces, Outside (Element.all t) t pieces ∧ content = k.mark ++ k.body t ∧
    octets = k.mark ++ (pieces.map k.body).flatten

theorem body_flatten (k : Charset.Codec) (pieces : List Text) :
    k.body pieces.flatten = (pieces.map k.body).flatten := by
  induction pieces with
  | nil => rfl
  | cons piece pieces ih =>
      rw [List.flatten_cons, Charset.Codec.body_append, ih, List.map_cons, List.flatten_cons]

theorem spliced_of_encode (h : k.encode t = .ok content)
    (h' : k.encode (embed t payload) = .ok octets) : Spliced k t payload content octets := by
  obtain ⟨middle, hcut, hdropped⟩ := exists_dropped t
  have hcontent := (Charset.Codec.encode_eq_ok_iff.mp h).2
  have hoctets := (Charset.Codec.encode_eq_ok_iff.mp h').2
  refine ⟨k.mark ++ k.body (lead t), middle, k.body (rest t), ?_, ?_, hdropped⟩
  · rw [hcut] at hcontent
    simpa only [Charset.Codec.body_append, List.append_assoc] using hcontent
  · rw [embed_eq] at hoctets
    simpa only [Charset.Codec.body_append, List.append_assoc] using hoctets

theorem thinned_of_encode (h : k.encode t = .ok content)
    (h' : k.encode (remove t) = .ok octets) : Thinned k t content octets := by
  have hoctets := (Charset.Codec.encode_eq_ok_iff.mp h').2
  rw [remove_eq, body_flatten] at hoctets
  exact ⟨pieces t, outside_pieces t, (Charset.Codec.encode_eq_ok_iff.mp h).2, hoctets⟩

end Encoded

end Inline

namespace Backend

section Rewriting

variable [Platform] {b : Backend} {m m' : Machine} {path : Path} {content octets : Bytes}
  {t : Text} {place : Location} {α : Type}

/-! ## Rewriting a file -/

theorem Takes.on_rewriting {updated : Text} (h : b.Takes m path updated octets place)
    (next : Nat → Run (StateM Machine) α) :
    on (b.encoded updated >>= fun octets =>
        Files.replace b.config.tempPrefix path octets >>= next) m =
      on (next octets.length) { m with store := m.store.set place (.file octets) } := by
  have hencoded : on (b.encoded updated) m = (.ok octets, m) := on_encoded_of_ok h.1 m
  rw [on_bind_of_ok hencoded, on_bind_of_ok (on_replace_of_replaceable h.2 octets)]

theorem on_rewriting_of_stuck {updated : Text}
    (h : ∀ octets place, ¬ b.Takes m path updated octets place)
    (next : Nat → Run (StateM Machine) α) :
    ∃ failure, on (b.encoded updated >>= fun octets =>
        Files.replace b.config.tempPrefix path octets >>= next) m = (.error failure, m) := by
  cases hencode : b.charset.encode updated with
  | error fault =>
      have hencoded : on (b.encoded updated) m = (.error (.charset fault), m) :=
        on_encoded_of_error hencode m
      exact ⟨_, on_bind_of_error hencoded⟩
  | ok octets =>
      have hencoded : on (b.encoded updated) m = (.ok octets, m) := on_encoded_of_ok hencode m
      obtain ⟨failure, hreplace⟩ :=
        on_replace_of_not_replaceable (fun place hplace => h octets place ⟨hencode, hplace⟩) octets
      refine ⟨failure, ?_⟩
      rw [on_bind_of_ok hencoded, on_bind_of_error hreplace]

/-- The ways in which rewriting a document with another text goes. -/
inductive RewriteOutcome (b : Backend) (m : Machine) (path : Path) (updated : Text) (done : α) :
    Except Failure α × Machine → Prop
  | refused {failure : Failure} {m' : Machine} (left : m.Left m' m.store) :
      RewriteOutcome b m path updated done (.error failure, m')
  | rewritten {octets : Bytes} {place : Location} {m' : Machine}
      (takes : b.Takes m path updated octets place)
      (left : m.Left m' (m.store.set place (.file octets))) :
      RewriteOutcome b m path updated done (.ok done, m')

theorem rewriteOutcome (b : Backend) (path : Path) (updated : Text) {done : α}
    {next : Run (StateM Machine) α}
    (hnext : ∀ m, ∃ m', on next m = (.ok done, m') ∧ m.Left m' m.store) (m : Machine) :
    RewriteOutcome b m path updated done (on (b.encoded updated >>= fun octets =>
      Files.replace b.config.tempPrefix path octets >>= fun _ => next) m) := by
  by_cases htakes : ∃ octets place, b.Takes m path updated octets place
  · obtain ⟨octets, place, htakes⟩ := htakes
    obtain ⟨m', hdone, left⟩ := hnext { m with store := m.store.set place (.file octets) }
    rw [htakes.on_rewriting, hdone]
    exact .rewritten htakes ⟨left.store, left.here, left.fresh⟩
  · obtain ⟨failure, hstuck⟩ := on_rewriting_of_stuck
      (fun octets place h => htakes ⟨octets, place, h⟩) fun _ => next
    rw [hstuck]
    exact .refused (.refl m)

omit [Platform] in
theorem on_noteAll_left (records : List Log.Record) (m : Machine) :
    ∃ m', on (Files.noteAll records) m = (.ok (), m') ∧ m.Left m' m.store :=
  ⟨_, on_noteAll records m, m.left_noting records⟩

theorem RewriteOutcome.behind {updated : Text} {done : α} {outcome : Except Failure α × Machine}
    (left : m.Left m' m.store) (h : RewriteOutcome b m' path updated done outcome) :
    RewriteOutcome b m path updated done outcome := by
  cases h with
  | refused left' =>
      rw [left.store] at left'
      exact .refused (left.trans left')
  | rewritten takes left' =>
      rw [left.store] at left'
      exact .rewritten ⟨takes.1, left.symm.replaceable takes.2⟩ (left.trans left')

/-- What saving does with the text of a document. -/
def embedding (b : Backend) (path : Path) (payload : Bytes) (t : Text) :
    Run (StateM Machine) Unit := do
  Files.noteAll (Inline.embedNotices t)
  let _ ← Files.replace b.config.tempPrefix path (← b.encoded (Inline.embed t payload))
  Files.noteAll [Log.Record.info "provmark.backends.inline"
    ("inline: embedded " ++ toString payload.length ++ "-byte manifest in " ++ path.toString)]

theorem saveAt_inline (hb : b.strategy = .inline) (path : Path) (payload : Bytes) :
    b.saveAt path payload = b.opening path (b.embedding path payload) := by
  rw [saveAt, hb]
  rfl

/-- What removing does with the text of a document. -/
def thinning (b : Backend) (path : Path) (t : Text) : Run (StateM Machine) Bool := do
  let content ← b.encoded (Inline.remove t)
  if Inline.remove t ≠ t then do
    let _ ← Files.replace b.config.tempPrefix path content
    Files.noteAll [Log.Record.info "provmark.backends.inline"
      ("inline: removed manifest from " ++ path.toString)]
    pure true
  else pure false

theorem removeAt_inline (hb : b.strategy = .inline) (path : Path) :
    b.removeAt path = b.opening path (b.thinning path) := by
  rw [removeAt, hb]
  rfl

theorem on_saveAt_inline (hb : b.strategy = .inline) (h : b.Document m path content t)
    (payload : Bytes) : RewriteOutcome b m path (Inline.embed t payload) ()
      (on (b.saveAt path payload) m) := by
  rw [saveAt_inline hb, h.on_opening, embedding, on_bind_of_ok (on_noteAll _ m)]
  exact (rewriteOutcome b path _ (on_noteAll_left _) _).behind (m.left_noting _)

theorem on_removeAt_inline_of_hasElement (hb : b.strategy = .inline)
    (h : b.Document m path content t) (helement : Inline.hasElement t = true) :
    RewriteOutcome b m path (Inline.remove t) true (on (b.removeAt path) m) := by
  rw [removeAt_inline hb, h.on_opening, thinning]
  simp only [if_pos (Inline.remove_ne_of_hasElement helement)]
  refine rewriteOutcome b path _ (fun m => ?_) m
  obtain ⟨m', hnoted, left⟩ := on_noteAll_left _ m
  exact ⟨m', (on_bind_of_ok hnoted).trans (on_pure true m'), left⟩

/-- A document without an element is encoded once more, but not written. -/
theorem on_removeAt_inline_of_no_element (hb : b.strategy = .inline)
    (h : b.Document m path content t) (helement : Inline.hasElement t = false) :
    on (b.removeAt path) m = ((((b.charset.encode t).mapError Failure.charset).map
      fun _ => false), m) := by
  have hsame : Inline.remove t = t := (Inline.remove_eq_self_iff t).mpr helement
  have hkeep : ¬ Inline.remove t ≠ t := not_not_intro hsame
  rw [removeAt_inline hb, h.on_opening, thinning]
  simp only [if_neg hkeep]
  rw [hsame]
  cases hencode : b.charset.encode t with
  | error fault => exact on_bind_of_error (on_encoded_of_error hencode m)
  | ok octets => exact (on_bind_of_ok (on_encoded_of_ok hencode m)).trans (on_pure false m)

theorem store_of_saveAt_inline_error {payload : Bytes} {failure : Failure}
    (hb : b.strategy = .inline) (h : on (b.saveAt path payload) m = (.error failure, m')) :
    m'.store = m.store := by
  rcases b.document_or_failure m path Unit with ⟨content, t, hdocument⟩ | ⟨failure', hfail⟩
  · have houtcome := on_saveAt_inline hb hdocument payload
    rw [h] at houtcome
    cases houtcome with
    | refused left => exact left.store
  · rw [saveAt_inline hb, hfail] at h
    cases h
    rfl

theorem store_of_removeAt_inline_error {failure : Failure} (hb : b.strategy = .inline)
    (h : on (b.removeAt path) m = (.error failure, m')) : m'.store = m.store := by
  rcases b.document_or_failure m path Bool with ⟨content, t, hdocument⟩ | ⟨failure', hfail⟩
  · cases helement : Inline.hasElement t with
    | true =>
        have houtcome := on_removeAt_inline_of_hasElement hb hdocument helement
        rw [h] at houtcome
        cases houtcome with
        | refused left => exact left.store
    | false =>
        rw [on_removeAt_inline_of_no_element hb hdocument helement] at h
        exact congrArg Machine.store (Prod.mk.inj h).2.symm
  · rw [removeAt_inline hb, hfail] at h
    cases h
    rfl

/-- A document that was rewritten has its new octets in its own place, and all else is as it was. -/
theorem RewriteOutcome.exists_place {updated : Text} {done a : α}
    (h : RewriteOutcome b m path updated done (.ok a, m')) : a = done ∧ ∃ place octets,
      m.store.locate m.here path = .ok place ∧ b.charset.encode updated = .ok octets ∧
        m.store.Updated m'.store place (some (.file octets)) := by
  cases h with
  | rewritten takes left =>
      have hwritable := takes.2.writable
      refine ⟨rfl, _, _, hwritable.located, takes.1, ?_⟩
      rw [Store.Updated, left.store]
      exact Store.node?_set m.store hwritable.place_ne_nil _

/--
An inline backend keeps every octet outside the manifest element that it writes,
or takes out, and every other file.  Octets behind the mark of their coding are
encoded again as they were; an operation that fails has changed nothing, whatever step of
it a machine under strain refuses, save that a temporary file stays whose deletion is
refused.
-/
theorem inline_edits_in_place {k : Charset.Codec} (hb : b.strategy = .inline)
    (hk : b.charset = .codec k) (m : Machine) (path : Path) :
    (∀ content t, k.mark <+: content → k.decode content = .ok t → k.encode t = .ok content) ∧
    (∀ payload failure m', on (b.saveAt path payload) m = (.error failure, m') →
      m'.store = m.store) ∧
    (∀ failure m', on (b.removeAt path) m = (.error failure, m') → m'.store = m.store) ∧
    (∀ strain : Strain,
      (∀ payload failure m', on (strain.under (b.saveAt path payload)) m = (.error failure, m') →
        strain.Keeps m.store m'.store) ∧
      ∀ failure m', on (strain.under (b.removeAt path)) m = (.error failure, m') →
        strain.Keeps m.store m'.store) ∧
    ∀ content t, b.Document m path content t → k.encode t = .ok content →
      (∀ payload m', on (b.saveAt path payload) m = (.ok (), m') → ∃ place octets,
        m.store.locate m.here path = .ok place ∧
          m.store.Updated m'.store place (some (.file octets)) ∧
            Inline.Spliced k t payload content octets) ∧
      (Inline.hasElement t = false → on (b.removeAt path) m = (.ok false, m)) ∧
      (Inline.hasElement t = true → ∀ removed m', on (b.removeAt path) m = (.ok removed, m') →
        removed = true ∧ ∃ place octets, m.store.locate m.here path = .ok place ∧
          m.store.Updated m'.store place (some (.file octets)) ∧
            Inline.Thinned k t content octets) := by
  refine ⟨fun content t => Charset.Codec.encode_of_decode,
    fun payload failure m' => store_of_saveAt_inline_error hb,
    fun failure m' => store_of_removeAt_inline_error hb,
    fun strain => ⟨fun payload => whole_saveAt_inline hb path payload m,
      whole_removeAt_inline hb path m⟩, ?_⟩
  intro content t hdocument hencode
  refine ⟨?_, ?_, ?_⟩
  · intro payload m' hsave
    have houtcome := on_saveAt_inline hb hdocument payload
    rw [hsave] at houtcome
    obtain ⟨-, place, octets, hlocate, hoctets, hupdated⟩ := houtcome.exists_place
    rw [hk, Charset.encode_codec_eq_ok_iff] at hoctets
    exact ⟨place, octets, hlocate, hupdated, Inline.spliced_of_encode hencode hoctets⟩
  · intro helement
    rw [on_removeAt_inline_of_no_element hb hdocument helement, hk,
      Charset.encode_of_codec hencode]
    rfl
  · intro helement removed m' hremove
    have houtcome := on_removeAt_inline_of_hasElement hb hdocument helement
    rw [hremove] at houtcome
    obtain ⟨hdone, place, octets, hlocate, hoctets, hupdated⟩ := houtcome.exists_place
    rw [hk, Charset.encode_codec_eq_ok_iff] at hoctets
    exact ⟨hdone, place, octets, hlocate, hupdated, Inline.thinned_of_encode hencode hoctets⟩

end Rewriting

section Bundled

attribute [local instance] Platform.bundled

def wideBackend : Backend :=
  ⟨.inline, { Config.standard with encoding := "utf-16" }, ⟨.none, []⟩, none⟩

/-- A document with blanks on both sides of its element. -/
def wideText : Text :=
  "<p>\u00E9 \n<script type='application/c2pa-manifest'>QQ==</script>\r\n</p>".toList

def wideContent : Bytes :=
  Charset.Codec.utf16.mark ++ Charset.Codec.utf16.body wideText

def wideMachine : Machine :=
  Machine.start ⟨[(["page.html"], .file wideContent), (["other"], .file [1])]⟩ [] [.sample]

def widePath : Path :=
  ⟨.none, ["page.html"]⟩

theorem document_wide : wideBackend.Document wideMachine widePath wideContent wideText :=
  ⟨by decide +kernel, eq_ok_of_toOption (by decide +kernel), eq_ok_of_toOption (by decide +kernel)⟩

-- The octets begin with the mark of the coding, and both operations succeed.
theorem inline_edits_in_place_wide :
    Charset.Codec.utf16.encode wideText = .ok wideContent ∧
    (∃ place octets, wideMachine.store.locate [] widePath = .ok place ∧
      wideMachine.store.Updated (on (wideBackend.saveAt widePath [2]) wideMachine).2.store place
        (some (.file octets)) ∧ Inline.Spliced .utf16 wideText [2] wideContent octets) ∧
    ∃ place octets, wideMachine.store.locate [] widePath = .ok place ∧
      wideMachine.store.Updated (on (wideBackend.removeAt widePath) wideMachine).2.store place
        (some (.file octets)) ∧ Inline.Thinned .utf16 wideText wideContent octets := by
  obtain ⟨hencode, -, -, -, hedits⟩ := inline_edits_in_place (b := wideBackend) (k := .utf16) rfl
    (charset_of_codecOf? (by decide +kernel)) wideMachine widePath
  have hsame := hencode wideContent wideText (List.prefix_append _ _)
    (eq_ok_of_toOption (by decide +kernel))
  have hsave : (on (wideBackend.saveAt widePath [2]) wideMachine).1 = .ok () :=
    eq_ok_of_toOption (by decide +kernel)
  have hremove : (on (wideBackend.removeAt widePath) wideMachine).1 = .ok true :=
    eq_ok_of_toOption (by decide +kernel)
  obtain ⟨hsaved, -, hremoved⟩ := hedits wideContent wideText document_wide hsame
  exact ⟨hsame, hsaved [2] _ (on_eq_of_fst hsave),
    (hremoved (by decide +kernel) true _ (on_eq_of_fst hremove)).2⟩

end Bundled

end Backend

end PageManifest
