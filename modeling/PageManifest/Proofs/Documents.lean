import PageManifest.Proofs.Saving

/-! # Documents on a machine

Every operation on a document begins by reading and decoding it, and what it does
next is a matter of the text.  Looking at files leaves them alone, so what holds of
a machine holds of the one that is left.
-/

namespace PageManifest

open Run

namespace Machine

variable {m m' m'' : Machine} {s s' : Store} {path target : Path} {place : Location}
  {tempPrefix : String}

theorem Left.refl (m : Machine) : m.Left m m.store :=
  ⟨rfl, rfl, rfl⟩

theorem Left.trans (h : m.Left m' s) (h' : m'.Left m'' s') : m.Left m'' s' :=
  ⟨h'.store, h'.here.trans h.here, h'.fresh.trans h.fresh⟩

/-- Two machines that agree on their files replace the same ones. -/
theorem Left.replaceable (left : m.Left m' m.store) (h : m.Replaceable tempPrefix target place) :
    m'.Replaceable tempPrefix target place := by
  obtain ⟨store, here, fresh, console, logging, said, noted⟩ := m
  obtain ⟨store', here', fresh', console', logging', said', noted'⟩ := m'
  obtain ⟨rfl, rfl, rfl⟩ : store' = store ∧ here' = here ∧ fresh' = fresh :=
    ⟨left.store, left.here, left.fresh⟩
  obtain ⟨⟨path, spot, hfit⟩, hwritable⟩ := h
  refine ⟨⟨path, spot, hfit.imp (fun _ _ htaken => ⟨htaken.noNul, htaken.occupied⟩)
    fun _ hfree => ⟨hfree.noNul, hfree.located, hfree.vacant⟩⟩, ?_⟩
  exact ⟨hwritable.noNul, hwritable.located, hwritable.noDirectory, hwritable.named⟩

theorem Left.symm (left : m.Left m' m.store) : m'.Left m m'.store :=
  ⟨left.store.symm, left.here.symm, left.fresh.symm⟩

end Machine

/-! ## Looking at files -/

/-- An operation that leaves all files as they are, and goes by nothing else on a machine. -/
structure Quiet {ε α : Type} (x : ExceptT ε (StateM Machine) α) : Prop where
  left : ∀ m : Machine, m.Left (x.run m).2 m.store
  same : ∀ m m' : Machine, m.Left m' m.store → (x.run m').1 = (x.run m).1

namespace Quiet

variable {ε α β : Type}

theorem pure (a : α) : Quiet (Pure.pure a : ExceptT ε (StateM Machine) α) :=
  ⟨fun m => .refl m, fun _ _ _ => rfl⟩

theorem throw (e : ε) : Quiet (throw e : ExceptT ε (StateM Machine) α) :=
  ⟨fun m => .refl m, fun _ _ _ => rfl⟩

theorem bind {x : ExceptT ε (StateM Machine) α} {f : α → ExceptT ε (StateM Machine) β}
    (hx : Quiet x) (hf : ∀ a, Quiet (f a)) : Quiet (x >>= f) := by
  have hrun : ∀ m, (x >>= f).run m = match x.run m with
      | (r, m') => (ExceptT.bindCont f r : StateM Machine _) m' := fun _ => rfl
  constructor
  · intro m
    have hfirst := hx.left m
    rw [hrun]
    rcases hm : x.run m with ⟨e | a, m₁⟩
    · rw [hm] at hfirst
      exact hfirst
    · rw [hm] at hfirst
      have hsecond := (hf a).left m₁
      rw [hfirst.store] at hsecond
      exact hfirst.trans hsecond
  · intro m m' left
    have hfirst := hx.left m
    have hfirst' := hx.left m'
    have hsame := hx.same m m' left
    rw [hrun, hrun]
    rcases hm : x.run m with ⟨r, m₁⟩
    rcases hm' : x.run m' with ⟨r', m₁'⟩
    rw [hm] at hfirst hsame
    rw [hm', left.store] at hfirst'
    rw [hm'] at hsame
    obtain rfl : r' = r := hsame
    cases r' with
    | error e => rfl
    | ok a =>
        have hbetween : m₁.Left m₁' m₁.store := by
          have hback := hfirst.symm.trans (left.trans hfirst')
          rw [hfirst.store]
          exact hback
        exact (hf a).same m₁ m₁' hbetween

theorem forM {γ : Type} {l : List γ} {f : γ → ExceptT ε (StateM Machine) Unit}
    (h : ∀ a ∈ l, Quiet (f a)) : Quiet (l.forM f) := by
  induction l with
  | nil => exact pure ()
  | cons a l ih =>
      have hrest := ih fun a' ha' => h a' (List.mem_cons_of_mem a ha')
      exact (h a (List.mem_cons_self ..)).bind fun _ => hrest

/-- Quiet steps find on the machine they start from what they find one after the other. -/
theorem bind_eq_ok_iff {x : ExceptT ε (StateM Machine) α} {f : α → ExceptT ε (StateM Machine) β}
    {m : Machine} {b : β} (hx : Quiet x) (hf : ∀ a, Quiet (f a)) :
    ((x >>= f).run m).1 = .ok b ↔
      ∃ a, (x.run m).1 = .ok a ∧ ((f a).run m).1 = .ok b := by
  have hrun : (x >>= f).run m = match x.run m with
      | (r, m') => (ExceptT.bindCont f r : StateM Machine _) m' := rfl
  have hleft := hx.left m
  rw [hrun]
  rcases hm : x.run m with ⟨e | a, m₁⟩
  · change (Except.error e : Except ε β) = .ok b ↔ _
    simp
  · rw [hm] at hleft
    have hsame : ((f a).run m₁).1 = ((f a).run m).1 := (hf a).same m m₁ hleft
    change ((f a).run m₁).1 = .ok b ↔ _
    simp [hsame]

theorem value (r : Except Failure α) : Quiet (Files.value r : Run (StateM Machine) α) :=
  ⟨fun m => .refl m, fun _ _ _ => rfl⟩

theorem noteAll (records : List Log.Record) :
    Quiet (Files.noteAll records : Run (StateM Machine) Unit) := by
  constructor
  · intro m
    change m.Left (on (Files.noteAll records) m).2 m.store
    rw [on_noteAll]
    exact m.left_noting records
  · intro m m' left
    change (on (Files.noteAll records) m').1 = (on (Files.noteAll records) m).1
    rw [on_noteAll, on_noteAll]

theorem of_unchanged {x : Run (StateM Machine) α} (hsecond : ∀ m, (on x m).2 = m)
    (hfirst : ∀ m m' : Machine, m'.store = m.store → m'.here = m.here → (on x m').1 = (on x m).1) :
    Quiet x := by
  constructor
  · intro m
    have hleft := Machine.Left.refl m
    change m.Left (on x m).2 m.store
    rw [hsecond m]
    exact hleft
  · intro m m' left
    exact hfirst m m' left.store left.here

theorem read (path : Path) : Quiet (Files.read path : Run (StateM Machine) Bytes) := by
  refine of_unchanged (on_read_unchanged path) fun m m' hstore hhere => ?_
  rw [on_read, on_read, hstore, hhere]
  cases path.hasNul with
  | true => rfl
  | false => cases m.store.readFile m.here path <;> rfl

theorem status? (path : Path) :
    Quiet (Files.status? path : Run (StateM Machine) (Option Status)) := by
  refine of_unchanged (on_status?_unchanged path) fun m m' hstore hhere => ?_
  rw [on_status?, on_status?, hstore, hhere]
  cases path.hasNul with
  | true => rfl
  | false => cases m.store.status m.here path <;> rfl

theorem isFile (path : Path) : Quiet (Files.isFile path : Run (StateM Machine) Bool) := by
  refine bind (bind (status? path) fun status => ?_) fun _ => pure _
  cases status with
  | none => exact pure _
  | some status => cases status <;> exact pure _

end Quiet

/-- A quiet operation leaves the files of a machine, however it goes. -/
theorem exists_on_of_quiet {α : Type} {x : Run (StateM Machine) α} (h : Quiet x) (m : Machine) :
    ∃ r m', on x m = (r, m') ∧ m.Left m' m.store :=
  ⟨_, _, rfl, h.left m⟩

theorem on_bind_quiet {α β : Type} {x : Run (StateM Machine) α} {f : α → Run (StateM Machine) β}
    {m : Machine} {b : β} (hx : Quiet x) (hf : ∀ a, Quiet (f a)) :
    (on (x >>= f) m).1 = .ok b ↔ ∃ a, (on x m).1 = .ok a ∧ (on (f a) m).1 = .ok b :=
  hx.bind_eq_ok_iff hf

/-- What an operation does to files is settled where only quiet steps follow. -/
theorem store_of_bind_quiet {α β : Type} {x : Run (StateM Machine) α}
    {f : α → Run (StateM Machine) β} (hf : ∀ a, Quiet (f a)) (m : Machine) :
    (on (x >>= f) m).2.store = (on x m).2.store := by
  rw [on_bind]
  rcases on x m with ⟨failure | a, m'⟩
  · rfl
  · exact ((hf a).left m').store

namespace Backend

variable {b : Backend} {m m' : Machine} {path target : Path} {content payload : Bytes}
  {t after : Text} {place : Location} {α : Type}

/-! ## Looking at the text of a document -/

theorem quiet_located (charset : Charset) (t : Text) (base : Path) :
    Quiet (Sidecar.located charset t base : Run (StateM Machine) (Option Path)) := by
  refine .bind (.noteAll _) fun _ => ?_
  split
  · exact .pure _
  · split
    · exact .pure _
    · exact .throw _

theorem quiet_update (b : Backend) (t : Text) (path : Path) (payload : Bytes) :
    Quiet (b.update t path payload : Run (StateM Machine) Text) :=
  .bind (.value _) fun _ => .bind (.noteAll _) fun _ => .pure _

/-- Tells whether a file holds anything else than a payload. -/
def unlike (target : Path) (payload : Bytes) : Run (StateM Machine) Bool := do
  return decide ((← Files.read target) ≠ payload)

/-- Tells whether a file is missing or holds anything else than a payload. -/
def differing (target : Path) (payload : Bytes) : Run (StateM Machine) Bool := do
  if ← Files.isFile target then unlike target payload else pure true

/-- What telling whether a save would change anything does with the text of a document. -/
def comparing (b : Backend) (path : Path) (payload : Bytes) (t : Text) :
    Run (StateM Machine) Bool := do
  let t' ← b.update t path payload
  match b.strategy with
  | .inline => pure (decide (t' ≠ t))
  | .sidecar =>
      if t' ≠ t then pure true
      else do
        let target ← Files.value (Sidecar.companion path)
        differing target payload

theorem quiet_unlike (target : Path) (payload : Bytes) : Quiet (unlike target payload) :=
  .bind (.read target) fun _ => .pure _

theorem quiet_differing (target : Path) (payload : Bytes) : Quiet (differing target payload) := by
  refine .bind (.isFile target) fun found => ?_
  split
  · exact quiet_unlike target payload
  · exact .pure _

theorem quiet_comparing (b : Backend) (path : Path) (payload : Bytes) (t : Text) :
    Quiet (b.comparing path payload t) := by
  refine .bind (quiet_update b t path payload) fun updated => ?_
  split
  · exact .pure _
  · split
    · exact .pure _
    · exact .bind (.value _) fun target => quiet_differing target payload

theorem on_update_of_ok (h : updated b.strategy t path payload = .ok after) (m : Machine) :
    on (b.update t path payload) m = (.ok after, m.noting (updateNotices b.strategy t)) := by
  unfold update
  rw [h, on_bind_of_ok (on_value (.ok after) m), on_bind_of_ok (on_noteAll _ m), on_pure]

theorem updated_sidecar (hb : b.strategy = .sidecar) (htarget : Sidecar.companion path = .ok target)
    (t : Text) (payload : Bytes) : updated b.strategy t path payload =
      .ok (Sidecar.insertReference t target.name.toList) := by
  rw [hb, updated, htarget]
  rfl

/-! ## Reading a document -/

variable [Platform]

/-- A document with its octets and its text. -/
structure Document (b : Backend) (m : Machine) (path : Path) (content : Bytes) (t : Text) :
    Prop where
  noNul : path.hasNul = false
  read : m.store.readFile m.here path = .ok content
  decoded : b.charset.decode content = .ok t

theorem Document.unique {content' : Bytes} {t' : Text} (h : b.Document m path content t)
    (h' : b.Document m path content' t') : content' = content ∧ t' = t := by
  obtain rfl : content' = content := Except.ok.inj (h'.read.symm.trans h.read)
  exact ⟨rfl, Except.ok.inj (h'.decoded.symm.trans h.decoded)⟩

theorem Document.left (h : b.Document m path content t) (left : m.Left m' m.store) :
    b.Document m' path content t := by
  refine ⟨h.noNul, ?_, h.decoded⟩
  rw [left.store, left.here]
  exact h.read

theorem Ready.document (h : b.Ready m path t target place) :
    ∃ content, b.Document m path content t := by
  obtain ⟨content, hread, hdecode⟩ := h.readable
  exact ⟨content, h.noNul, hread, hdecode⟩

/-- An operation that goes on with the text of a document. -/
def opening (b : Backend) (path : Path) (next : Text → Run (StateM Machine) α) :
    Run (StateM Machine) α :=
  Files.read path >>= fun content => b.decoded content >>= next

theorem Document.on_opening (h : b.Document m path content t)
    (next : Text → Run (StateM Machine) α) : on (b.opening path next) m = on (next t) m := by
  have hread : on (Files.read path) m = (.ok content, m) :=
    on_read_eq_ok_iff.mpr ⟨h.noNul, h.read, rfl⟩
  have hdecoded : on (b.decoded content) m = (.ok t, m) := on_decoded_of_ok h.decoded m
  rw [opening, on_bind_of_ok hread, on_bind_of_ok hdecoded]

/-- Without a document every operation on it fails, and does nothing else. -/
theorem document_or_failure (b : Backend) (m : Machine) (path : Path) (α : Type) :
    (∃ content t, b.Document m path content t) ∨
      ∃ failure, ∀ next : Text → Run (StateM Machine) α,
        on (b.opening path next) m = (.error failure, m) := by
  have hsame := on_read_unchanged path m
  rcases hread : on (Files.read path) m with ⟨failure | content, m'⟩
  · rw [hread] at hsame
    obtain rfl : m' = m := hsame
    exact .inr ⟨failure, fun next => on_bind_of_error hread⟩
  · obtain ⟨hnul, hcontent, rfl⟩ := on_read_eq_ok_iff.mp hread
    cases hdecode : b.charset.decode content with
    | error fault =>
        refine .inr ⟨.charset fault, fun next => ?_⟩
        have hdecoded : on (b.decoded content) m' = (.error (.charset fault), m') :=
          on_decoded_of_error hdecode m'
        rw [opening, on_bind_of_ok hread, on_bind_of_error hdecoded]
    | ok t => exact .inl ⟨content, t, hnul, hcontent, hdecode⟩

/-- An operation that succeeds has had a document to work on. -/
theorem exists_document_of_opening {next : Text → Run (StateM Machine) α} {a : α}
    (h : (on (b.opening path next) m).1 = .ok a) : ∃ content t, b.Document m path content t := by
  rcases b.document_or_failure m path α with hdocument | ⟨failure, hfail⟩
  · exact hdocument
  · rw [hfail next] at h
    cases h

theorem quiet_hasManifest (b : Backend) (path : Path) :
    Quiet (b.hasManifest path : Run (StateM Machine) Bool) := by
  refine .bind (.read path) fun content => .bind (.value _) fun t => ?_
  split
  · exact .pure _
  · refine .bind (quiet_located _ _ _) fun found => ?_
    split
    · exact .isFile _
    · exact .pure _

theorem wouldChange_eq (b : Backend) (path : Path) (payload : Bytes) :
    b.wouldChange path payload = b.opening path (b.comparing path payload) := rfl

theorem quiet_wouldChange (b : Backend) (path : Path) (payload : Bytes) :
    Quiet (b.wouldChange path payload : Run (StateM Machine) Bool) :=
  .bind (.read path) fun _ => .bind (.value _) (b.quiet_comparing path payload)

/-! ## Whether saving would change anything -/

theorem Document.on_wouldChange_inline (hb : b.strategy = .inline)
    (h : b.Document m path content t) (payload : Bytes) :
    (on (b.wouldChange path payload) m).1 = .ok (decide (Inline.embed t payload ≠ t)) := by
  have hupdated : updated b.strategy t path payload = .ok (Inline.embed t payload) := by
    rw [hb]
    rfl
  rw [wouldChange_eq, h.on_opening, comparing, on_bind_of_ok (on_update_of_ok hupdated m), hb]
  rfl

/-- A document that would get another text would change. -/
theorem Document.on_wouldChange_of_other (hb : b.strategy = .sidecar)
    (h : b.Document m path content t) (hupdated : updated b.strategy t path payload = .ok after)
    (hother : after ≠ t) : (on (b.wouldChange path payload) m).1 = .ok true := by
  rw [wouldChange_eq, h.on_opening, comparing, on_bind_of_ok (on_update_of_ok hupdated m), hb]
  simp only [if_pos hother]
  rfl

/-- A document that would stay as it is leaves the companion file to be looked at. -/
theorem Document.on_wouldChange_of_settled (hb : b.strategy = .sidecar)
    (h : b.Document m path content t) (htarget : Sidecar.companion path = .ok target)
    (hsettled : Sidecar.insertReference t target.name.toList = t) :
    (on (b.wouldChange path payload) m).1 = (on (differing target payload) m).1 := by
  have hupdated := updated_sidecar hb htarget t payload
  rw [hsettled] at hupdated
  have hquiet := (quiet_differing target payload).same m
    (m.noting (updateNotices b.strategy t)) (m.left_noting _)
  rw [wouldChange_eq, h.on_opening, comparing, on_bind_of_ok (on_update_of_ok hupdated m)]
  rw [hb] at hquiet ⊢
  simp only [ne_eq, not_true_eq_false, if_false]
  rw [htarget, on_bind_of_ok (on_value (.ok target) _)]
  exact hquiet

end Backend

end PageManifest
