import PageManifest.Proofs.Vacancy

/-! # What removing leaves

Removing is one pass from left to right, so the text on both sides of an element
is joined behind its back.  The joined text has an element exactly where the
keyword of its opening tag was split by one that was taken out.
-/

namespace PageManifest.Inline

open Markup

/-- An element stands across a cut, and the cut goes through the keyword of its opening tag. -/
def Rejoins (t : Text) : Prop :=
  ∃ left right a b y z, pieces t = left ++ (a ++ b) :: right ∧ right.flatten = y ++ z ∧
    b ≠ [] ∧ y ≠ [] ∧ (b ++ y).map Text.fold = scriptKeyword ∧
      (Element.here? (b ++ right.flatten)).isSome = true

/-! ## The pieces -/

theorem pieces_ne_nil (t : Text) : pieces t ≠ [] := by
  cases h : Element.find? t with
  | none => simp [pieces_of_none h]
  | some f => simp [pieces_of_some h]

/-- Pieces in front of a cut leave nothing open, and the last piece has no element. -/
theorem pieces_settled {t p : Text} {left right : List Text} (h : pieces t = left ++ p :: right) :
    (right = [] → Element.find? p = none) ∧
      (right ≠ [] → Element.hasOpening p = false ∧ Element.hasUnclosed p = false) := by
  induction t using pieces.induct generalizing left with
  | case1 t hnone =>
      rw [pieces_of_none hnone] at h
      cases left with
      | nil =>
          simp only [List.nil_append, List.cons.injEq] at h
          rw [← h.1, ← h.2]
          exact ⟨fun _ => hnone, fun hne => absurd rfl hne⟩
      | cons q left =>
          have hlen := congrArg List.length h
          simp at hlen
  | case2 t f hf ih =>
      rw [pieces_of_some hf] at h
      cases left with
      | nil =>
          simp only [List.nil_append, List.cons.injEq] at h
          rw [← h.1, ← h.2]
          exact ⟨fun hnil => absurd hnil (pieces_ne_nil _), fun _ => Element.front_settled hf⟩
      | cons q left =>
          simp only [List.cons_append, List.cons.injEq] at h
          exact ih h.2

/-- A place in joined pieces lies in one of them. -/
theorem exists_piece_of_flatten {ps : List Text} {u v : Text} (h : ps.flatten = u ++ v)
    (hv : v ≠ []) : ∃ left right a b, ps = left ++ (a ++ b) :: right ∧ b ≠ [] ∧
      v = b ++ right.flatten := by
  induction ps generalizing u with
  | nil => exact absurd (List.append_eq_nil_iff.mp h.symm).2 hv
  | cons p ps ih =>
      rw [List.flatten_cons] at h
      have inside : ∀ x, ps.flatten = x ++ v → ∃ left right a b,
          p :: ps = left ++ (a ++ b) :: right ∧ b ≠ [] ∧ v = b ++ right.flatten := by
        intro x hx
        obtain ⟨left, right, a, b, rfl, hb, hcut⟩ := ih hx
        exact ⟨p :: left, right, a, b, rfl, hb, hcut⟩
      rcases List.append_eq_append_iff.mp h with ⟨x, -, hx⟩ | ⟨b, rfl, hb⟩
      · exact inside x hx
      · cases b with
        | nil => exact inside [] hb.symm
        | cons c b => exact ⟨[], ps, u, c :: b, rfl, by simp, hb⟩

/-- An element of the joined pieces stands across a cut, which goes through its keyword. -/
theorem hasElement_remove_iff (t : Text) : hasElement (remove t) = true ↔ Rejoins t := by
  rw [remove_eq]
  constructor
  · intro h
    obtain ⟨f, hf⟩ := Option.isSome_iff_exists.mp h
    obtain ⟨v, hcut, hv, -⟩ := Text.findFirst_eq_some_iff.mp hf
    obtain ⟨tail, htail⟩ := Element.text_lt_head (Element.here?_eq_some_iff.mp hv).2
    have hne : v ≠ [] := by
      rw [(Element.here?_eq_some_iff.mp hv).1, htail]
      simp
    obtain ⟨left, right, a, b, hp, hb, rfl⟩ := exists_piece_of_flatten hcut hne
    obtain ⟨hlast, hinner⟩ := pieces_settled hp
    by_cases hright : right = []
    · -- The last piece is the end of the document as it was.
      have quiet := Element.find?_eq_none_iff.mp (hlast hright) a b rfl hb
      rw [hright, List.flatten_nil, quiet] at hv
      cases hv
    · obtain ⟨hopening, hunclosed⟩ := hinner hright
      have ho := (Element.here?_eq_some_iff.mp hv).2.opening
      rcases Element.here?_append_cases hv with ⟨y, rfl⟩ | ⟨x, w, hx, hsplit, hrest⟩
      · exact absurd ho (Element.not_isOpening_of_inside hopening rfl)
      · rw [hsplit] at ho
        rcases ho.cut hx with hleft | ⟨-, y, z, hy, rfl, hspell⟩
        · have leftOpen := Element.hasUnclosed_iff.mpr ⟨a, b, rfl, hleft⟩
          rw [hunclosed] at leftOpen
          cases leftOpen
        · have hfollow : right.flatten = y ++ (z ++ w) := by rw [hrest, List.append_assoc]
          exact ⟨left, right, a, b, y, z ++ w, hp, hfollow, hb, hy, hspell, by rw [hv]; rfl⟩
  · intro h
    obtain ⟨left, right, a, b, y, z, hp, -, -, -, -, hsome⟩ := h
    refine Text.isSome_findFirst_iff.mpr ⟨left.flatten ++ a, b ++ right.flatten, ?_, hsome⟩
    simp [hp]

/-! ## Removing twice -/

theorem length_flatten_pieces_le (t : Text) : (pieces t).flatten.length ≤ t.length := by
  induction t using pieces.induct with
  | case1 t h => simp [pieces_of_none h]
  | case2 t f h ih =>
      obtain ⟨blanks, ht, -, -⟩ := Element.find?_cut h
      have hlen := congrArg List.length ht
      have hafter := Text.length_trimStart_le f.after
      rw [pieces_of_some h, List.flatten_cons, List.length_append]
      simp only [List.length_append] at hlen
      omega

/-- Taking an element out makes the document shorter. -/
theorem remove_ne_of_hasElement {t : Text} (h : hasElement t = true) : remove t ≠ t := by
  obtain ⟨f, hf⟩ := Option.isSome_iff_exists.mp h
  obtain ⟨blanks, ht, -, -⟩ := Element.find?_cut hf
  obtain ⟨tail, htail⟩ := Element.text_lt_head (Element.find?_eq_some_iff.mp hf).2.1
  intro heq
  have hlen := congrArg List.length heq
  have hcut := congrArg List.length ht
  have hrest := length_flatten_pieces_le (Text.trimStart f.after)
  have hafter := Text.length_trimStart_le f.after
  rw [remove_eq, pieces_of_some hf, List.flatten_cons, List.length_append] at hlen
  simp only [htail, List.length_append, List.length_cons] at hcut
  omega

theorem remove_eq_self_iff (t : Text) : remove t = t ↔ hasElement t = false := by
  constructor
  · intro h
    cases hsome : hasElement t with
    | false => rfl
    | true => exact absurd h (remove_ne_of_hasElement hsome)
  · intro h
    exact remove_of_none (hasElement_eq_false_iff.mp h)

/--
Removing leaves no element exactly if no keyword is split by an element that is
taken out; then removing again changes nothing and no scan reports a payload.
-/
theorem remove_complete_iff (t : Text) :
    (hasElement (remove t) = false ↔ ¬ Rejoins t) ∧
      (remove (remove t) = remove t ↔ ¬ Rejoins t) ∧
      ∀ charset payload marker,
        InlineScan.ofText charset (remove t) = .ok (.manifest payload marker) → Rejoins t := by
  have hiff : hasElement (remove t) = false ↔ ¬ Rejoins t := by
    rw [← hasElement_remove_iff, Bool.not_eq_true]
  refine ⟨hiff, ?_, ?_⟩
  · rw [remove_eq_self_iff, hiff]
  · intro charset payload marker hscan
    rw [← hasElement_remove_iff]
    cases hsome : hasElement (remove t) with
    | true => rfl
    | false =>
        have hvacant := Element.vacant_of_none (hasElement_eq_false_iff.mp hsome)
        rw [InlineScan.ofText_of_vacant hvacant] at hscan
        have hpayload := InlineScan.payload?_of_ofHead hscan
        cases hpayload

/-- A keyword with an element inside. -/
def splitKeyword : Text :=
  ("<scr<script type=\"application/c2pa-manifest\"></script>ipt " ++
    "type=\"application/c2pa-manifest\">QQ==</script>").toList

/-- What stands there once the element is taken out. -/
def joinedKeyword : Text :=
  "<script type=\"application/c2pa-manifest\">QQ==</script>".toList

theorem remove_splitKeyword : remove splitKeyword = joinedKeyword := by
  have hfirst := Element.find?_append_tag (a := "<scr".toList) (by decide +kernel)
    (by decide +kernel) [] "ipt type=\"application/c2pa-manifest\">QQ==</script>".toList
  have hrest : Element.find? (Text.trimStart
      "ipt type=\"application/c2pa-manifest\">QQ==</script>".toList) = none :=
    hasElement_eq_false_iff.mp (by decide +kernel)
  have hcut : splitKeyword = "<scr".toList ++ (tag [] ++
      "ipt type=\"application/c2pa-manifest\">QQ==</script>".toList) := by decide +kernel
  rw [hcut, remove_eq, pieces_of_some hfirst, pieces_of_none hrest]
  decide +kernel

theorem scan_joinedKeyword : ∃ marker,
    InlineScan.ofText (.codec .utf8) joinedKeyword = .ok (.manifest [0x41] marker) := by
  have hfirst := Element.find?_append_tag (a := []) (by decide) (by decide) [0x41] []
  have hcut : joinedKeyword = [] ++ (tag [0x41] ++ []) := by decide +kernel
  rw [hcut]
  exact ⟨_, InlineScan.ofText_of_encode hfirst (by decide) fun _ _ => rfl⟩

theorem remove_incomplete_at_splitKeyword :
    hasElement (remove splitKeyword) = true ∧
      remove (remove splitKeyword) ≠ remove splitKeyword ∧
      ∃ marker, InlineScan.ofText (.codec .utf8) (remove splitKeyword) =
        .ok (.manifest [0x41] marker) := by
  have hsome : hasElement (remove splitKeyword) = true := by
    rw [remove_splitKeyword]
    decide +kernel
  refine ⟨hsome, remove_ne_of_hasElement hsome, ?_⟩
  rw [remove_splitKeyword]
  exact scan_joinedKeyword

theorem rejoins_splitKeyword : Rejoins splitKeyword := by
  obtain ⟨marker, hscan⟩ := scan_joinedKeyword
  rw [← remove_splitKeyword] at hscan
  exact (remove_complete_iff splitKeyword).2.2 _ _ marker hscan

end PageManifest.Inline
