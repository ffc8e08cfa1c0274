import PageManifest.Text.Search

/-! # Leftmost search, declaratively

`findFirst` is described by the cut it makes: what is recognised follows the cut,
and nothing is recognised at any place in front of it.  Keywords and single
characters are described by the parts of the text they split off.
-/

namespace PageManifest.Text

variable {α : Type} {here : Text → Option (α × Text)}

/-- Nothing is recognised at a place of `s`, when `t` follows it. -/
def Silent (here : Text → Option (α × Text)) (s t : Text) : Prop :=
  ∀ a b, s = a ++ b → b ≠ [] → here (b ++ t) = none

theorem silent_nil (here : Text → Option (α × Text)) (t : Text) : Silent here [] t := by
  intro a b hab hb
  exact absurd (List.append_eq_nil_iff.mp hab.symm).2 hb

theorem silent_cons_iff {c : Char} {s t : Text} :
    Silent here (c :: s) t ↔ here (c :: s ++ t) = none ∧ Silent here s t := by
  constructor
  · intro h
    refine ⟨h [] (c :: s) rfl (by simp), ?_⟩
    intro a b hab hb
    exact h (c :: a) b (by simp [hab]) hb
  · rintro ⟨hc, hs⟩ a b hab hb
    cases a with
    | nil =>
        rw [List.nil_append] at hab
        rw [← hab]
        exact hc
    | cons d a =>
        simp only [List.cons_append, List.cons.injEq] at hab
        exact hs a b hab.2 hb

theorem silent_append_iff {s u t : Text} :
    Silent here (s ++ u) t ↔ Silent here s (u ++ t) ∧ Silent here u t := by
  induction s with
  | nil => simp [silent_nil]
  | cons c s ih =>
      simp only [List.cons_append, silent_cons_iff, ih, List.append_assoc, and_assoc]

/-! ## The cut of a search -/

theorem findFrom_append_of_silent {s u rest : Text} {item : α} (hs : Silent here s u)
    (hu : here u = some (item, rest)) (n : Nat) :
    findFrom here n (s ++ u) = some (n + s.length, item, rest) := by
  induction s generalizing n with
  | nil => cases u <;> simp [findFrom, hu]
  | cons c s ih =>
      obtain ⟨hc, hs⟩ := silent_cons_iff.mp hs
      rw [List.cons_append] at hc ⊢
      have hlen : n + 1 + s.length = n + (c :: s).length := by
        rw [List.length_cons]
        omega
      simp only [findFrom, hc, ih hs, hlen]

theorem exists_cut_of_findFrom {t rest : Text} {n m : Nat} {item : α}
    (h : findFrom here n t = some (m, item, rest)) :
    ∃ s u, t = s ++ u ∧ m = n + s.length ∧ here u = some (item, rest) ∧ Silent here s u := by
  induction t generalizing n with
  | nil =>
      simp only [findFrom, Option.map_eq_some_iff, Prod.mk.injEq] at h
      obtain ⟨p, hp, rfl, rfl, rfl⟩ := h
      exact ⟨[], [], rfl, rfl, hp, silent_nil here []⟩
  | cons c t ih =>
      cases hc : here (c :: t) with
      | some p =>
          simp only [findFrom, hc, Option.some.injEq, Prod.mk.injEq] at h
          obtain ⟨rfl, rfl, rfl⟩ := h
          exact ⟨[], c :: t, rfl, rfl, hc, silent_nil here _⟩
      | none =>
          simp only [findFrom, hc] at h
          obtain ⟨s, u, rfl, rfl, hu, hs⟩ := ih h
          refine ⟨c :: s, u, rfl, ?_, hu, silent_cons_iff.mpr ⟨hc, hs⟩⟩
          rw [List.length_cons]
          omega

/-- A search finds exactly the first place where something is recognised. -/
theorem findFirst_eq_some_iff {t : Text} {f : Found α} :
    findFirst here t = some f ↔
      ∃ u, t = f.before ++ u ∧ here u = some (f.item, f.after) ∧ Silent here f.before u := by
  unfold findFirst
  rw [Option.map_eq_some_iff]
  constructor
  · intro h
    obtain ⟨⟨m, item, rest⟩, hm, rfl⟩ := h
    obtain ⟨s, u, rfl, rfl, hu, hs⟩ := exists_cut_of_findFrom hm
    simp only [Nat.zero_add, List.take_left]
    exact ⟨u, rfl, hu, hs⟩
  · intro h
    obtain ⟨u, rfl, hu, hs⟩ := h
    refine ⟨(0 + f.before.length, f.item, f.after), findFrom_append_of_silent hs hu 0, ?_⟩
    simp only [Nat.zero_add, List.take_left]

theorem findFirst_append_of_silent {s u rest : Text} {item : α} (hs : Silent here s u)
    (hu : here u = some (item, rest)) : findFirst here (s ++ u) = some ⟨s, item, rest⟩ :=
  findFirst_eq_some_iff.mpr ⟨u, rfl, hu, hs⟩

theorem findFirst_eq_none_iff {t : Text} :
    findFirst here t = none ↔ Silent here t [] ∧ here [] = none := by
  unfold findFirst
  rw [Option.map_eq_none_iff]
  suffices general : ∀ n, findFrom here n t = none ↔ Silent here t [] ∧ here [] = none from
    general 0
  induction t with
  | nil =>
      intro n
      simp [findFrom, silent_nil]
  | cons c t ih =>
      intro n
      rw [silent_cons_iff, List.append_nil]
      cases hc : here (c :: t) with
      | none => simp [findFrom, hc, ih]
      | some p => simp [findFrom, hc]

/-- A search passes over text in which nothing is recognised. -/
theorem findFirst_append {s u : Text} (hs : Silent here s u) :
    findFirst here (s ++ u) =
      (findFirst here u).map fun f => ⟨s ++ f.before, f.item, f.after⟩ := by
  cases hu : findFirst here u with
  | none =>
      obtain ⟨hquiet, hend⟩ := findFirst_eq_none_iff.mp hu
      refine findFirst_eq_none_iff.mpr ⟨silent_append_iff.mpr ⟨?_, hquiet⟩, hend⟩
      rw [List.append_nil]
      exact hs
  | some f =>
      obtain ⟨v, rfl, hv, hquiet⟩ := findFirst_eq_some_iff.mp hu
      refine findFirst_eq_some_iff.mpr ⟨v, by simp, hv, ?_⟩
      exact silent_append_iff.mpr ⟨hs, hquiet⟩

/-- A place where something is recognised bounds the search from the right. -/
theorem findFirst_append_of_isSome {a u : Text} (hu : (here u).isSome = true) :
    ∃ f b, findFirst here (a ++ u) = some f ∧ a = f.before ++ b ∧
      here (b ++ u) = some (f.item, f.after) ∧ Silent here f.before (b ++ u) := by
  induction a with
  | nil =>
      obtain ⟨p, hp⟩ := Option.isSome_iff_exists.mp hu
      exact ⟨⟨[], p.1, p.2⟩, [], findFirst_append_of_silent (silent_nil here u) hp, rfl, hp,
        silent_nil here _⟩
  | cons c a ih =>
      cases hc : here (c :: a ++ u) with
      | some p =>
          exact ⟨⟨[], p.1, p.2⟩, c :: a, findFirst_append_of_silent (silent_nil here _) hc, rfl,
            hc, silent_nil here _⟩
      | none =>
          obtain ⟨f, b, hf, ha, hb, hs⟩ := ih
          have hs' : Silent here (c :: f.before) (b ++ u) := by
            rw [silent_cons_iff, List.cons_append, ← List.append_assoc, ← ha]
            exact ⟨hc, hs⟩
          refine ⟨⟨c :: f.before, f.item, f.after⟩, b, ?_, by simp [ha], hb, hs'⟩
          rw [findFirst_eq_some_iff]
          exact ⟨b ++ u, by simp [ha], hb, hs'⟩

theorem isSome_findFirst_iff {t : Text} :
    (findFirst here t).isSome = true ↔ ∃ a u, t = a ++ u ∧ (here u).isSome = true := by
  constructor
  · intro h
    obtain ⟨f, hf⟩ := Option.isSome_iff_exists.mp h
    obtain ⟨u, ht, hu, -⟩ := findFirst_eq_some_iff.mp hf
    exact ⟨f.before, u, ht, by simp [hu]⟩
  · rintro ⟨a, u, rfl, hu⟩
    obtain ⟨f, b, hf, -⟩ := findFirst_append_of_isSome (a := a) hu
    simp [hf]

/-! ## Tags

A reader of tags takes a piece of text off the front by looking at that piece only.
-/

/-- `here` takes off the front exactly the texts that satisfy `tag`. -/
def Reads (here : Text → Option (Text × Text)) (tag : Text → Prop) : Prop :=
  ∀ t x rest, here t = some (x, rest) ↔ t = x ++ rest ∧ tag x

namespace Reads

variable {read : Text → Option (Text × Text)} {tag : Text → Prop}

theorem isSome_iff (hr : Reads read tag) {t : Text} :
    (read t).isSome = true ↔ ∃ x rest, t = x ++ rest ∧ tag x := by
  constructor
  · intro h
    obtain ⟨p, hp⟩ := Option.isSome_iff_exists.mp h
    exact ⟨p.1, p.2, (hr t p.1 p.2).mp hp⟩
  · rintro ⟨x, rest, ht⟩
    rw [(hr t x rest).mpr ht]
    rfl

/-- What a text holds inside, a longer text holds too. -/
theorem isSome_findFirst_iff (hr : Reads read tag) {t : Text} :
    (findFirst read t).isSome = true ↔ ∃ a x b, t = a ++ (x ++ b) ∧ tag x := by
  rw [Text.isSome_findFirst_iff]
  constructor
  · rintro ⟨a, u, rfl, hu⟩
    obtain ⟨x, rest, rfl, hx⟩ := hr.isSome_iff.mp hu
    exact ⟨a, x, rest, rfl, hx⟩
  · rintro ⟨a, x, b, rfl, hx⟩
    exact ⟨a, x ++ b, rfl, hr.isSome_iff.mpr ⟨x, b, rfl, hx⟩⟩

theorem isSome_findFirst_append (hr : Reads read tag) {t : Text}
    (h : (findFirst read t).isSome = true) (s u : Text) :
    (findFirst read (s ++ (t ++ u))).isSome = true := by
  obtain ⟨a, x, b, rfl, hx⟩ := hr.isSome_findFirst_iff.mp h
  exact hr.isSome_findFirst_iff.mpr ⟨s ++ a, x, b ++ u, by simp, hx⟩

end Reads

/-! ## Keywords and single characters -/

/-- What stands in front of the rest is some spelling of the keyword. -/
theorem afterKeyword_eq_some_iff {k t rest : Text} :
    afterKeyword k t = some rest ↔ ∃ s, t = s ++ rest ∧ s.map fold = k := by
  constructor
  · intro h
    induction k generalizing t with
    | nil =>
        rw [afterKeyword_nil, Option.some.injEq] at h
        exact ⟨[], h, rfl⟩
    | cons a k ih =>
        cases t with
        | nil => cases h
        | cons c t =>
            by_cases hc : fold c = a
            · rw [afterKeyword, if_pos hc] at h
              obtain ⟨s, rfl, rfl⟩ := ih h
              exact ⟨c :: s, rfl, by rw [List.map_cons, hc]⟩
            · rw [afterKeyword, if_neg hc] at h
              cases h
  · intro h
    obtain ⟨s, rfl, rfl⟩ := h
    induction s with
    | nil => exact afterKeyword_nil rest
    | cons c s ih => rw [List.map_cons, List.cons_append, afterKeyword, if_pos rfl, ih]

theorem afterKeyword_append {k s : Text} (h : s.map fold = k) (t : Text) :
    afterKeyword k (s ++ t) = some t :=
  afterKeyword_eq_some_iff.mpr ⟨s, rfl, h⟩

theorem splitAtChar_eq_some_iff {sep : Char} {t before after : Text} :
    splitAtChar sep t = some (before, after) ↔ t = before ++ sep :: after ∧ sep ∉ before := by
  constructor
  · intro h
    refine ⟨splitAtChar_eq_some h, ?_⟩
    unfold splitAtChar at h
    split at h
    · cases h
    · simp only [Option.some.injEq, Prod.mk.injEq] at h
      rw [← h.1]
      intro hmem
      have kept := List.all_eq_true.mp List.all_takeWhile sep hmem
      simp at kept
  · rintro ⟨rfl, hb⟩
    have hp : ∀ c ∈ before, decide (c ≠ sep) = true := by
      intro c hc
      simp only [ne_eq, decide_not, Bool.not_eq_true', decide_eq_false_iff_not]
      rintro rfl
      exact hb hc
    rw [splitAtChar, List.dropWhile_append_of_pos hp, List.takeWhile_append_of_pos hp]
    simp

/-- The first occurrence of a character cuts a text in one way only. -/
theorem append_cons_inj_of_not_mem {sep : Char} {a a' b b' : Text} (ha : sep ∉ a)
    (ha' : sep ∉ a') (h : a ++ sep :: b = a' ++ sep :: b') : a = a' ∧ b = b' := by
  have left : splitAtChar sep (a ++ sep :: b) = some (a, b) :=
    splitAtChar_eq_some_iff.mpr ⟨rfl, ha⟩
  have right : splitAtChar sep (a ++ sep :: b) = some (a', b') :=
    splitAtChar_eq_some_iff.mpr ⟨h, ha'⟩
  rw [left] at right
  simpa using right

/-- The last character of a text is in whatever the text ends with. -/
theorem mem_of_concat_eq {s a b : Text} {c : Char} (h : s ++ [c] = a ++ b) (hb : b ≠ []) :
    c ∈ b := by
  have hlast := congrArg List.getLast? h
  rw [List.getLast?_concat, List.getLast?_append, List.getLast?_eq_some_getLast hb,
    Option.some_or, Option.some.injEq] at hlast
  exact hlast ▸ List.getLast_mem hb

/-- Nothing follows a character that a text holds at its end at most. -/
theorem eq_nil_of_concat_eq {sep d : Char} {s a b : Text} (hs : sep ∉ s)
    (h : s ++ [d] = a ++ sep :: b) : b = [] := by
  rcases List.eq_nil_or_concat b with hnil | ⟨front, last, rfl⟩
  · exact hnil
  · have hcut : s ++ [d] = a ++ sep :: front ++ [last] := by simp [h]
    rw [(List.append_inj' hcut rfl).1] at hs
    exact absurd (by simp) hs

end PageManifest.Text
