import PageManifest.Proofs.Forecast
import PageManifest.Proofs.RoundTrip

/-! # Manifests that are up to date

A manifest is up to date if embedding it once more would change nothing.  Reading
measures where the manifest stands, so the text in front of it has to be encoded, which
a coding of the platform may refuse for what it has read.  Inside a document that is
all.  Beside a document the companion file is looked for under the name of the
document, but read through the reference, which is read without the blanks in front of
it and not at all where it begins like inline data.
-/

namespace PageManifest

open Run

namespace Inline

open Markup

/-- In a document that embedding leaves alone, no opening tag is left in front of the element. -/
theorem hasOpening_lead_of_embed_eq {t : Text} {payload : Bytes} (h : embed t payload = t) :
    Element.hasOpening (lead t) = false := by
  cases hopen : Element.hasOpening (lead t) with
  | false => rfl
  | true =>
      have hno : hasElement t = false := by
        cases helement : hasElement t with
        | false => rfl
        | true => exact absurd (.inl helement) ((hasOpening_lead_iff t).mp hopen)
      have hnone := hasElement_eq_false_iff.mp hno
      obtain ⟨middle, hcut⟩ := lead_append_rest t
      -- The element that embedding writes would be found.
      obtain ⟨f, hf, -⟩ := Element.find?_append_tag_of_hasOpening hnone hcut hopen payload (rest t)
      rw [← embed_eq, h, hnone] at hf
      cases hf

/-- The payload text of a document can be marked, behind the opening tag of its element. -/
def MarksPayload (charset : Charset) (t : Text) (payload : Bytes) : Prop :=
  charset.Marks (lead t ++ Element.canonicalOpening) (Base64.encode payload)

theorem marksPayload_codec {k : Charset.Codec} {t : Text} (hk : k.Encodes t) (payload : Bytes) :
    MarksPayload (.codec k) t payload :=
  Charset.marks_codec (Charset.Codec.encodes_append_iff.mpr ⟨encodes_lead_opening hk,
    fun _ hc => k.encodes_of_ascii (Base64.toNat_lt_of_mem_encode hc)⟩)

/-- What embedding leaves alone is read just if its payload text can be marked. -/
theorem readPayload_of_embed_eq {charset : Charset} {t : Text} {payload : Bytes}
    (hpayload : payload ≠ []) (h : embed t payload = t) :
    InlineScan.readPayload charset t = .ok payload ↔ MarksPayload charset t payload := by
  obtain ⟨s, b, hcut, hf⟩ := Element.find?_append_tag_of_not_hasOpening
    (hasOpening_lead_of_embed_eq h) payload (rest t)
  rw [← embed_eq, h] at hf
  rw [InlineScan.readPayload_eq_ok_iff hf hpayload, MarksPayload, hcut, List.append_assoc]

end Inline

namespace Backend

variable {b : Backend} {m m' : Machine} {path target : Path} {content payload : Bytes} {t : Text}

/-- Reads a companion file, which has to hold something. -/
def opened (target : Path) : Run (StateM Machine) Bytes := do
  let content ← tryCatch (Files.read target) fun failure => match failure with
    | .os fault => throw (.companionUnreadable target fault)
    | failure => throw failure
  if content.isEmpty then throw (.companionEmpty target) else pure content

theorem on_opened_eq_ok_iff : (on (opened target) m).1 = .ok payload ↔
    target.hasNul = false ∧ m.store.readFile m.here target = .ok payload ∧ payload ≠ [] := by
  rw [opened, on_bind, on_tryCatch]
  rcases hread : on (Files.read target) m with ⟨failure | held, m₁⟩
  · refine iff_of_false ?_ fun h => ?_
    · cases failure <;> exact fun h => by cases h
    · have hok : on (Files.read target) m = (.ok payload, m) :=
        on_read_eq_ok_iff.mpr ⟨h.1, h.2.1, rfl⟩
      rw [hread] at hok
      cases hok
  · obtain ⟨hnul, hheld, -⟩ := on_read_eq_ok_iff.mp hread
    rw [hheld, Except.ok.injEq]
    cases held with
    | nil =>
        refine iff_of_false (fun h => by cases h) ?_
        rintro ⟨-, rfl, hne⟩
        exact hne rfl
    | cons b held =>
        change (Except.ok (b :: held) : Except Failure Bytes) = .ok payload ↔ _
        rw [Except.ok.injEq]
        refine ⟨?_, fun h => h.2.1⟩
        rintro rfl
        exact ⟨hnul, rfl, by simp⟩

/-- Beside a document, what is read is what the file holds that the reference leads to. -/
theorem on_read_eq_ok_iff_located {charset : Charset} {base : Path} :
    (on (Sidecar.read charset t base) m).1 = .ok payload ↔
      ∃ target, Sidecar.locate charset t base = .ok target ∧ target.hasNul = false ∧
        m.store.readFile m.here target = .ok payload ∧ payload ≠ [] := by
  change (on (Files.noteAll (ReferenceScan.notices t) >>= fun _ =>
    Files.value (Sidecar.locate charset t base) >>= opened) m).1 = .ok payload ↔ _
  rw [on_bind_of_ok (on_noteAll _ m)]
  cases Sidecar.locate charset t base with
  | error failure =>
      rw [on_bind_of_error (on_value (.error failure) _)]
      simp
  | ok target =>
      rw [on_bind_of_ok (on_value (.ok target) _), on_opened_eq_ok_iff]
      simp [Machine.noting]

/-- Where the reference to the companion file of a document leads when it is read back. -/
def recalled (path : Path) : Path :=
  path.parent.child (String.ofList (Sidecar.suffixed (Text.trimStart path.name.toList)))

theorem hasNul_recalled (h : path.hasNul = false) (hparts : path.parts ≠ []) :
    (recalled path).hasNul = false := by
  rw [← Path.parent_child_name hparts, Path.hasNul_child, Bool.or_eq_false_iff] at h
  rw [recalled, Path.hasNul_child, h.1, Bool.false_or, String.toList_ofList,
    List.contains_eq_mem, decide_eq_false_iff_not, Sidecar.suffixed, List.mem_append, not_or]
  have hname := h.2
  rw [List.contains_eq_mem, decide_eq_false_iff_not] at hname
  exact ⟨fun hmem => hname ((List.dropWhile_sublist _).subset hmem), by decide⟩

section Reading

variable [Platform]

/-- What reading does with the text of a document. -/
def extracting (b : Backend) (path : Path) (t : Text) : Run (StateM Machine) Bytes :=
  match b.strategy with
  | .inline => Files.value (InlineScan.readPayload b.charset t)
  | .sidecar => Sidecar.read b.charset t path.parent

theorem readAt_eq (b : Backend) (path : Path) :
    b.readAt path = b.opening path (b.extracting path) := rfl

/-- What is read of a document is marked in it: the payload text, or the value of the reference. -/
def Marked (b : Backend) (path : Path) (payload : Bytes) (t : Text) : Prop :=
  match b.strategy with
  | .inline => Inline.MarksPayload b.charset t payload
  | .sidecar => ∃ target, Sidecar.companion path = .ok target ∧
      Sidecar.MarksReference b.charset t target.name.toList

theorem marked_inline (hb : b.strategy = .inline) :
    b.Marked path payload t ↔ Inline.MarksPayload b.charset t payload := by
  rw [Marked, hb]

theorem marked_sidecar (hb : b.strategy = .sidecar)
    (htarget : Sidecar.companion path = .ok target) :
    b.Marked path payload t ↔ Sidecar.MarksReference b.charset t target.name.toList := by
  rw [Marked, hb]
  constructor
  · rintro ⟨target', htarget', hmarks⟩
    obtain rfl : target' = target := Except.ok.inj (htarget'.symm.trans htarget)
    exact hmarks
  · intro hmarks
    exact ⟨target, htarget, hmarks⟩

/-- A linked document is read through its reference, as that is read back. -/
theorem Linked.on_readAt_eq_ok_iff {held : Option Bytes} (hb : b.strategy = .sidecar)
    (h : b.Linked m path target content t held) (hslash : '/' ∉ path.name.toList)
    (hpayload : payload ≠ []) :
    (on (b.readAt path) m).1 = .ok payload ↔
      Sidecar.MarksReference b.charset t target.name.toList ∧
      ¬ "data:".toList <+: Text.trimStart path.name.toList ∧
        m.store.readFile m.here (recalled path) = .ok payload := by
  have hslash' : '/' ∉ Text.trimStart path.name.toList :=
    fun hmem => hslash ((List.dropWhile_sublist _).subset hmem)
  rw [readAt_eq, h.document.on_opening, extracting, hb]
  simp only [on_read_eq_ok_iff_located]
  by_cases hmarks : Sidecar.MarksReference b.charset t target.name.toList
  · have hlocate := Sidecar.locate_insertReference_eq h.named hmarks
    rw [h.settled] at hlocate
    simp only [hlocate, Sidecar.resolve_suffixed_eq_ok_iff hslash']
    constructor
    · rintro ⟨_, ⟨hdata, rfl⟩, -, hread, -⟩
      exact ⟨hmarks, hdata, hread⟩
    · rintro ⟨-, hdata, hread⟩
      exact ⟨_, ⟨hdata, rfl⟩, hasNul_recalled h.noNul (Sidecar.parts_ne_nil_of_companion h.named),
        hread, hpayload⟩
  · obtain ⟨fault, hlocate⟩ := Sidecar.locate_insertReference_of_unmarked h.named hmarks path.parent
    rw [h.settled] at hlocate
    refine iff_of_false ?_ fun hread => hmarks hread.1
    rintro ⟨_, hlocated, -⟩
    rw [hlocate] at hlocated
    cases hlocated

/--
What is up to date is read back exactly if where it stands can be marked and, beside a
document, the reference, read without leading blanks, leads to a file that holds the
payload.  It does lead there where the name of the document begins neither with a blank
nor like inline data, and a coding that is written out marks everything.
-/
theorem up_to_date_reads_iff {w : Text} (hpayload : payload ≠ [])
    (h : (on (b.wouldChange (Path.ofText w) payload) m).1 = .ok false) :
    ∃ content t, b.Document m (Path.ofText w) content t ∧
      ((on (b.readAt (Path.ofText w)) m).1 = .ok payload ↔
        b.Marked (Path.ofText w) payload t ∧
        (b.strategy = .sidecar →
          ¬ "data:".toList <+: Text.trimStart (Path.ofText w).name.toList ∧
            m.store.readFile m.here (recalled (Path.ofText w)) = .ok payload)) ∧
      (Text.trimStart (Path.ofText w).name.toList = (Path.ofText w).name.toList →
        ¬ "data:".toList <+: (Path.ofText w).name.toList →
        b.Marked (Path.ofText w) payload t →
          (on (b.readAt (Path.ofText w)) m).1 = .ok payload) ∧
      (∀ k, b.charset = .codec k → b.Marked (Path.ofText w) payload t) := by
  have hcodec : ∀ content t, b.Document m (Path.ofText w) content t → ∀ k,
      b.charset = .codec k → k.Encodes t := by
    intro content t hdocument k hk
    have hdecode := hdocument.decoded
    rw [hk] at hdecode
    exact Charset.Codec.encodes_of_decode (Charset.decode_codec_eq_ok_iff.mp hdecode)
  cases hb : b.strategy with
  | inline =>
      obtain ⟨content, t, hdocument⟩ := exists_document_of_opening h
      rw [hdocument.on_wouldChange_inline hb, Except.ok.injEq, decide_eq_false_iff_not, ne_eq,
        Classical.not_not] at h
      have hread : (on (b.readAt (Path.ofText w)) m).1 = .ok payload ↔
          b.Marked (Path.ofText w) payload t := by
        rw [marked_inline hb, readAt_eq, hdocument.on_opening, extracting, hb,
          ← Inline.readPayload_of_embed_eq hpayload h, on_value]
      refine ⟨content, t, hdocument, by simpa using hread, fun _ _ => hread.mpr, fun k hk => ?_⟩
      rw [marked_inline hb, hk]
      exact Inline.marksPayload_codec (hcodec content t hdocument k hk) payload
  | sidecar =>
      obtain ⟨target, content, t, hlinked⟩ := linked_of_wouldChange hb h
      have hiff := hlinked.on_readAt_eq_ok_iff hb (Path.name_ofText w).2 hpayload
      have hmarks : b.Marked (Path.ofText w) payload t ↔ _ := marked_sidecar hb hlinked.named
      rw [← hmarks] at hiff
      refine ⟨content, t, hlinked.document, by simpa using hiff,
        fun hblank hdata hmarked => hiff.mpr ⟨hmarked, ?_⟩, fun k hk => ?_⟩
      · rw [hblank, recalled, hblank, ← Sidecar.eq_child_of_companion hlinked.named]
        exact ⟨hdata, hlinked.readFile_companion⟩
      · rw [marked_sidecar hb hlinked.named, hk]
        refine Sidecar.marksReference_codec ?_
        rw [hlinked.settled]
        exact hcodec content t hlinked.document k hk

end Reading

section Bundled

attribute [local instance] Platform.bundled

-- The name of the document has to be escaped in its reference.
theorem up_to_date_reads_ampersand :
    (on (plainSidecar.wouldChange (Path.ofText ampersandName) [1]) ampersandSaved).1 = .ok false ∧
    (on (plainSidecar.readAt (Path.ofText ampersandName)) ampersandSaved).1 = .ok [1] := by
  have hsettled : (on (plainSidecar.wouldChange (Path.ofText ampersandName) [1])
      ampersandSaved).1 = .ok false := eq_ok_of_toOption (by decide +kernel)
  obtain ⟨content, t, -, -, hreads, hmarked⟩ := up_to_date_reads_iff (by decide) hsettled
  exact ⟨hsettled, hreads (by decide +kernel) (by decide +kernel)
    (hmarked .utf8 (charset_of_codecOf? (by decide +kernel)))⟩

/-- A document whose name begins with a blank, with its reference and its companion file. -/
def blankMachine : Machine :=
  Machine.start ⟨[([" a.html"], .file (Charset.Codec.utf8.body
      ("<head>\n".toList ++ Markup.referenceTag " a.html.c2pa".toList ++ "</head>".toList))),
    ([" a.html.c2pa"], .file [1])]⟩ [] [.sample]

theorem up_to_date_not_read :
    (on (plainSidecar.wouldChange (Path.ofText " a.html".toList) [1]) blankMachine).1 =
      .ok false ∧
    ∃ failure, (on (plainSidecar.readAt (Path.ofText " a.html".toList)) blankMachine).1 =
      .error failure :=
  ⟨eq_ok_of_toOption (by decide +kernel), exists_error_of_toOption (by decide +kernel)⟩

end Bundled

end Backend

end PageManifest
