import PageManifest.Proofs.Vacancy

/-! # What a history of edits leaves

Embedding, removing and padding are followed over whole histories.  Whatever the
order, a document that had no element is left as its two parts, with the element
of the payload last written between them or with nothing.
-/

namespace PageManifest

open Markup

namespace Markup.Element

/-- The manifest elements of a text, from left to right and without overlap. -/
def all (t : Text) : List Element :=
  match _h : find? t with
  | none => []
  | some f => f.item :: all f.after
termination_by t.length
decreasing_by
  exact Text.findFirst_after_length (fun _ _ _ h => here?_length h) _h

theorem all_eq (t : Text) : all t = match find? t with
    | none => []
    | some f => f.item :: all f.after := by
  rw [all]
  split <;> rename_i h <;> rw [h]

end Markup.Element

namespace Inline

/-! ## The cut of a document without its blanks -/

theorem trimStart_back (t : Text) : Text.trimStart (back t) = back t := by
  cases h : back t with
  | nil => rfl
  | cons c v =>
      rw [lt_head_back c v h]
      rfl

theorem bodyClosing?_front_append_back (t : Text) :
    (bodyClosing? t = none ∧ bodyClosing? (front t ++ back t) = none) ∨
      ∃ f, bodyClosing? t = some f ∧
        bodyClosing? (front t ++ back t) = some ⟨front t, f.item, f.after⟩ := by
  cases h : bodyClosing? t with
  | none =>
      left
      obtain ⟨blanks, hcut, -⟩ := front_append_back t
      obtain ⟨hs, -⟩ := Text.findFirst_eq_none_iff.mp h
      rw [hcut] at hs
      refine ⟨rfl, ?_⟩
      have hback : back t = [] := by simp [back, h]
      rw [hback, List.append_nil]
      exact findFirst_eq_none_of_silent (w := "/body".toList) (by decide)
        (Text.silent_append_iff.mp hs).1
  | some f =>
      right
      refine ⟨f, rfl, ?_⟩
      obtain ⟨-, ⟨tail, htail⟩, hs⟩ := bodyClosing?_cut h
      obtain ⟨blanks, hblanks, -⟩ := Text.trimEnd_append_blanks f.before
      rw [hblanks] at hs
      have hnone : Text.findFirst bodyClosingHere? (Text.trimEnd f.before) = none :=
        findFirst_eq_none_of_silent (w := "/body".toList) (by decide)
          (Text.silent_append_iff.mp hs).1
      have hquiet : Text.Silent bodyClosingHere? (Text.trimEnd f.before) (f.item ++ f.after) := by
        rw [htail]
        exact silent_endTag? (w := "/body".toList) (by decide) hnone
      obtain ⟨u, -, hu, -⟩ := Text.findFirst_eq_some_iff.mp h
      have hitem : bodyClosingHere? (f.item ++ f.after) = some (f.item, f.after) :=
        (reads_bodyClosingHere? _ _ _).mpr ⟨rfl, ((reads_bodyClosingHere? _ _ _).mp hu).2⟩
      simp only [front, back, h]
      exact Text.findFirst_append_of_silent hquiet hitem

/-- Dropping the blanks at the place for a manifest does not move it. -/
theorem front_front_append_back (t : Text) : front (front t ++ back t) = front t := by
  have htight := Text.trimEnd_of_tight (tight_front t)
  rcases bodyClosing?_front_append_back t with ⟨h, h'⟩ | ⟨f, -, h'⟩
  · have hback : back t = [] := by simp [back, h]
    rw [front, h', hback, List.append_nil]
    exact htight
  · rw [front, h']
    exact htight

theorem back_front_append_back (t : Text) : back (front t ++ back t) = back t := by
  rcases bodyClosing?_front_append_back t with ⟨h, h'⟩ | ⟨f, h, h'⟩
  · rw [back, h']
    simp only [back, h]
  · rw [back, h']
    simp only [back, h]

/-! ## Documents in which nothing is left open -/

/-- A document without an element whose front part ends outside of markup. -/
structure Settled (t : Text) : Prop where
  noElement : hasElement t = false
  noOpening : Element.hasOpening (front t) = false
  noUnclosed : Element.hasUnclosed (front t) = false

namespace Settled

variable {t : Text}

theorem find?_eq_none (h : Settled t) : Element.find? t = none :=
  hasElement_eq_false_iff.mp h.noElement

theorem find?_back (h : Settled t) : Element.find? (back t) = none := by
  obtain ⟨blanks, hcut, -⟩ := front_append_back t
  have hs := Element.find?_eq_none_iff.mp h.find?_eq_none
  rw [hcut, Text.silent_append_iff, Text.silent_append_iff] at hs
  exact Element.find?_eq_none_iff.mpr hs.2.2

/-- Joining the two parts of the document makes no element. -/
theorem find?_bare (h : Settled t) : Element.find? (front t ++ back t) = none := by
  have hback := Element.find?_eq_none_iff.mp h.find?_back
  have hfront := Element.silent_here? h.noOpening h.noUnclosed (lt_head_back (t := t))
  refine Element.find?_eq_none_iff.mpr (Text.silent_append_iff.mpr ⟨?_, hback⟩)
  rw [List.append_nil]
  exact hfront

theorem find?_holding (h : Settled t) (payload : Bytes) :
    Element.find? (front t ++ (tag payload ++ back t)) =
      some ⟨front t, Element.canonical payload, back t⟩ :=
  Element.find?_append_tag h.noOpening h.noUnclosed payload (back t)

theorem embed_bare (h : Settled t) (payload : Bytes) :
    embed (front t ++ back t) payload = front t ++ (tag payload ++ back t) := by
  rw [embed_of_none h.find?_bare, front_front_append_back, back_front_append_back]

/-- The new element takes the place of the old one. -/
theorem embed_holding (h : Settled t) (old payload : Bytes) :
    embed (front t ++ (tag old ++ back t)) payload = front t ++ (tag payload ++ back t) := by
  rw [embed_eq, lead, rest, h.find?_holding old]
  simp only [Text.trimEnd_of_tight (tight_front t), trimStart_back]

theorem remove_holding (h : Settled t) (payload : Bytes) :
    remove (front t ++ (tag payload ++ back t)) = front t ++ back t := by
  rw [remove_eq, pieces_of_some (h.find?_holding payload), trimStart_back,
    pieces_of_none h.find?_back, Text.trimEnd_of_tight (tight_front t)]
  simp

theorem vacant_holding_nil (h : Settled t) :
    Element.Vacant (front t ++ (tag [] ++ back t)) := by
  intro f hf
  rw [h.find?_holding [], Option.some.injEq] at hf
  rw [← hf]
  rfl

theorem withPlaceholder_holding (h : Settled t) {payload placeholder : Bytes}
    (hpayload : payload ≠ []) (hp : placeholder ≠ []) :
    withPlaceholder (front t ++ (tag payload ++ back t)) placeholder =
      .ok (front t ++ (tag payload ++ back t)) :=
  withPlaceholder_of_payload
    (InlineScan.ofText_of_encode (h.find?_holding payload) hpayload fun _ _ => rfl) hpayload hp

end Settled

/-! ## Histories -/

/-- One edit of a document. -/
inductive Edit
  | embed (payload : Bytes)
  | remove
  | pad (placeholder : Bytes)
  deriving DecidableEq, Repr

def Edit.apply (t : Text) : Edit → Except Failure Text
  | embed payload => .ok (Inline.embed t payload)
  | remove => .ok (Inline.remove t)
  | pad placeholder => withPlaceholder t placeholder

def run (t : Text) (edits : List Edit) : Except Failure Text :=
  edits.foldlM Edit.apply t

/-- What is left between the two parts of a document. -/
inductive Content
  | untouched
  | bare
  | holding (payload : Bytes)
  deriving DecidableEq, Repr

namespace Content

/-- A stand-in is written only where no payload is; removing leaves an untouched document alone. -/
def after : Content → Edit → Content
  | _, .embed payload => holding payload
  | untouched, .remove => untouched
  | _, .remove => bare
  | holding payload, .pad placeholder =>
      if payload = [] then holding placeholder else holding payload
  | _, .pad placeholder => holding placeholder

/-- The document that starts as `t`. -/
def text (t : Text) : Content → Text
  | untouched => t
  | bare => front t ++ back t
  | holding payload => front t ++ (tag payload ++ back t)

def elements : Content → List Element
  | untouched => []
  | bare => []
  | holding payload => [Element.canonical payload]

def ofEdits (edits : List Edit) : Content :=
  edits.foldl after untouched

end Content

variable {t : Text}

theorem Settled.all_text (h : Settled t) (s : Content) : Element.all (s.text t) = s.elements := by
  cases s with
  | untouched => rw [Content.text, Element.all_eq, h.find?_eq_none, Content.elements]
  | bare => rw [Content.text, Element.all_eq, h.find?_bare, Content.elements]
  | holding payload =>
      have hback : Element.all (back t) = [] := by
        rw [Element.all_eq, h.find?_back]
      rw [Content.text, Element.all_eq, h.find?_holding payload, Content.elements]
      simp only [hback]

/-- A single edit keeps the shape of the document. -/
theorem Settled.apply_text (h : Settled t) (s : Content) {e : Edit} (he : e ≠ .pad []) :
    e.apply (s.text t) = .ok ((s.after e).text t) := by
  cases e with
  | embed payload =>
      cases s with
      | untouched => exact congrArg _ (embed_of_none h.find?_eq_none payload)
      | bare => exact congrArg _ (h.embed_bare payload)
      | holding old => exact congrArg _ (h.embed_holding old payload)
  | remove =>
      cases s with
      | untouched => exact congrArg _ (remove_of_none h.find?_eq_none)
      | bare => exact congrArg _ (remove_of_none h.find?_bare)
      | holding old => exact congrArg _ (h.remove_holding old)
  | pad placeholder =>
      have hp : placeholder ≠ [] := by
        intro hnil
        exact he (by rw [hnil])
      cases s with
      | untouched =>
          have hvacant := Element.vacant_of_none h.find?_eq_none
          simp only [Edit.apply, Content.text, Content.after, withPlaceholder_of_vacant hvacant hp,
            embed_of_none h.find?_eq_none]
      | bare =>
          have hvacant := Element.vacant_of_none h.find?_bare
          simp only [Edit.apply, Content.text, Content.after, withPlaceholder_of_vacant hvacant hp,
            h.embed_bare]
      | holding old =>
          by_cases hold : old = []
          · subst hold
            simp only [Edit.apply, Content.text, Content.after, if_true,
              withPlaceholder_of_vacant h.vacant_holding_nil hp, h.embed_holding]
          · simp only [Edit.apply, Content.text, Content.after, if_neg hold,
              h.withPlaceholder_holding hold hp]

theorem Settled.run_text (h : Settled t) (s : Content) {edits : List Edit}
    (hedits : ∀ e ∈ edits, e ≠ .pad []) :
    run (s.text t) edits = .ok ((edits.foldl Content.after s).text t) := by
  induction edits generalizing s with
  | nil => rfl
  | cons e edits ih =>
      have hstep := h.apply_text s (hedits e (by simp))
      rw [run, List.foldlM_cons, hstep, List.foldl_cons]
      exact ih (s.after e) fun d hd => hedits d (by simp [hd])

theorem Content.after_eq_untouched_iff (s : Content) (e : Edit) :
    s.after e = untouched ↔ s = untouched ∧ e = .remove := by
  cases s with
  | untouched => cases e <;> simp [after]
  | bare => cases e <;> simp [after]
  | holding payload =>
      cases e with
      | embed new => simp [after]
      | remove => simp [after]
      | pad placeholder =>
          by_cases hp : payload = []
          · simp [after, hp]
          · simp [after, hp]

theorem Content.foldl_after_eq_untouched_iff (s : Content) (edits : List Edit) :
    edits.foldl after s = untouched ↔ s = untouched ∧ ∀ e ∈ edits, e = .remove := by
  induction edits generalizing s with
  | nil => simp
  | cons e edits ih =>
      rw [List.foldl_cons, ih, after_eq_untouched_iff, List.forall_mem_cons, and_assoc]

/--
Whatever the history, the document is untouched as long as nothing was written,
and from then on it consists of its two parts and of one element at most.
-/
theorem run_settled (h : Settled t) (edits : List Edit) (hedits : ∀ e ∈ edits, e ≠ .pad []) :
    run t edits = .ok ((Content.ofEdits edits).text t) ∧
      Element.all ((Content.ofEdits edits).text t) = (Content.ofEdits edits).elements ∧
      (Content.ofEdits edits = .untouched ↔ ∀ e ∈ edits, e = .remove) := by
  refine ⟨h.run_text .untouched hedits, h.all_text _, ?_⟩
  rw [Content.ofEdits, Content.foldl_after_eq_untouched_iff]
  simp

-- An empty payload gives way to a stand-in, a stand-in that is there does not.
theorem run_settled_interleaved :
    run "<p>a <script>b</script> \n</body>".toList
        [.remove, .embed [], .pad [1], .pad [2], .remove, .pad [3]] =
      .ok ("<p>a <script>b</script>".toList ++ (tag [3] ++ "</body>".toList)) ∧
    run "<p>a <script>b</script> \n</body>".toList [.remove, .embed [], .pad [1], .pad [2]] =
      .ok ("<p>a <script>b</script>".toList ++ (tag [1] ++ "</body>".toList)) := by
  have settled : Settled "<p>a <script>b</script> \n</body>".toList :=
    ⟨by decide +kernel, by decide +kernel, by decide +kernel⟩
  exact ⟨(run_settled settled _ (by decide)).1, (run_settled settled _ (by decide)).1⟩

end Inline

end PageManifest
