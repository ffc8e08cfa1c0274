import PageManifest.Proofs.Readings

/-! # Patterns and backtracking

A pattern is a row of steps, some of which can take more or less of a text.  Its
readings are listed in the order in which backtracking tries them, and a search takes
the first one at the leftmost place that has any.  The readers of tags and of manifest
elements decide without trying: they return what backtracking over the pattern of an
element comes to.
-/

namespace PageManifest.Text

/--
A step of a pattern: a single character, a run of characters that is tried longest or
shortest first, or a place where a word begins or ends.
-/
inductive Step where
  | one (accepts : Char → Bool)
  | most (accepts : Char → Bool)
  | fewest (accepts : Char → Bool)
  | edge

/-- The cuts of a text behind characters that are accepted, the shortest first. -/
def cuts (accepts : Char → Bool) : Text → List (Text × Text)
  | [] => [([], [])]
  | c :: t =>
      ([], c :: t) :: if accepts c then (cuts accepts t).map fun p => (c :: p.1, p.2) else []

/-- What a step can take off the front of a text; `inWord` tells whether a word is under way. -/
def Step.tries (inWord : Bool) : Step → Text → List (Text × Text)
  | .one _, [] => []
  | .one accepts, c :: t => if accepts c then [([c], t)] else []
  | .most accepts, t => (cuts accepts t).reverse
  | .fewest accepts, t => cuts accepts t
  | .edge, t => if inWord = endsWord t then [([], t)] else []

/-- All that a pattern can take off the front of a text, in the order of backtracking. -/
def tries (inWord : Bool) : List Step → Text → List (Text × Text)
  | [], t => [([], t)]
  | step :: pattern, t =>
      (step.tries inWord t).flatMap fun p =>
        (tries (inWordAfter inWord p.1) pattern p.2).map fun q => (p.1 ++ q.1, q.2)

/-- A keyword as a pattern: the characters one by one, without regard to case. -/
def literal (keyword : Text) : List Step :=
  keyword.map fun k => .one fun c => fold c == k

/-- The first reading at the leftmost place that has one. -/
def search {α : Type} (readings : Bool → Text → List (α × Text)) (t : Text) : Option (Found α) :=
  (cuts (fun _ => true) t).findSome? fun p =>
    (readings (inWordAfter false p.1) p.2).head?.map fun q => ⟨p.1, q.1, q.2⟩

/-! ## What a pattern takes -/

theorem mem_cuts_iff {accepts : Char → Bool} {t x r : Text} :
    (x, r) ∈ cuts accepts t ↔ t = x ++ r ∧ ∀ c ∈ x, accepts c = true := by
  induction t generalizing x with
  | nil =>
      simp only [cuts, List.mem_singleton, Prod.mk.injEq]
      constructor
      · rintro ⟨rfl, rfl⟩
        simp
      · rintro ⟨h, -⟩
        exact List.append_eq_nil_iff.mp h.symm
  | cons c t ih =>
      rw [cuts, List.mem_cons, Prod.mk.injEq]
      constructor
      · rintro (⟨rfl, rfl⟩ | h)
        · simp
        · split at h
          · rename_i hc
            obtain ⟨⟨y, v⟩, hy, hp⟩ := List.mem_map.mp h
            obtain ⟨rfl, rfl⟩ := Prod.mk.inj hp
            obtain ⟨rfl, hall⟩ := ih.mp hy
            exact ⟨rfl, List.forall_mem_cons.mpr ⟨hc, hall⟩⟩
          · cases h
      · rintro ⟨hcut, hall⟩
        cases x with
        | nil => exact .inl ⟨rfl, hcut.symm⟩
        | cons d y =>
            obtain ⟨rfl, rfl⟩ := List.cons.inj hcut
            obtain ⟨hc, hy⟩ := List.forall_mem_cons.mp hall
            rw [if_pos hc]
            exact .inr (List.mem_map.mpr ⟨(y, r), ih.mpr ⟨rfl, hy⟩, rfl⟩)

/-- A step takes `x` where `r` follows. -/
def Step.Takes (inWord : Bool) (x r : Text) : Step → Prop
  | .one accepts => ∃ c, x = [c] ∧ accepts c = true
  | .most accepts => ∀ c ∈ x, accepts c = true
  | .fewest accepts => ∀ c ∈ x, accepts c = true
  | .edge => x = [] ∧ inWord = endsWord r

theorem Step.mem_tries_iff {inWord : Bool} {step : Step} {t x r : Text} :
    (x, r) ∈ step.tries inWord t ↔ t = x ++ r ∧ step.Takes inWord x r := by
  cases step with
  | one accepts =>
      cases t with
      | nil =>
          simp only [Step.tries, Step.Takes, List.not_mem_nil, false_iff, not_and]
          rintro h ⟨c, rfl, -⟩
          cases h
      | cons d t =>
          simp only [Step.tries, Step.Takes]
          constructor
          · intro h
            split at h
            · rename_i hd
              obtain ⟨rfl, rfl⟩ := Prod.mk.inj (List.mem_singleton.mp h)
              exact ⟨rfl, d, rfl, hd⟩
            · cases h
          · rintro ⟨hcut, c, rfl, hc⟩
            obtain ⟨rfl, rfl⟩ := List.cons.inj hcut
            rw [if_pos hc]
            exact List.mem_singleton.mpr rfl
  | most accepts => exact List.mem_reverse.trans mem_cuts_iff
  | fewest accepts => exact mem_cuts_iff
  | edge =>
      simp only [Step.tries, Step.Takes]
      constructor
      · intro h
        split at h
        · rename_i hedge
          obtain ⟨rfl, rfl⟩ := Prod.mk.inj (List.mem_singleton.mp h)
          exact ⟨rfl, rfl, hedge⟩
        · cases h
      · rintro ⟨hcut, rfl, hedge⟩
        obtain rfl : t = r := hcut
        rw [if_pos hedge]
        exact List.mem_singleton.mpr rfl

/-- A pattern takes `x` where `r` follows. -/
def Takes (inWord : Bool) : List Step → (x r : Text) → Prop
  | [], x, _ => x = []
  | step :: pattern, x, r =>
      ∃ y z, x = y ++ z ∧ step.Takes inWord y (z ++ r) ∧
        Takes (inWordAfter inWord y) pattern z r

theorem mem_tries_iff {inWord : Bool} {pattern : List Step} {t x r : Text} :
    (x, r) ∈ tries inWord pattern t ↔ t = x ++ r ∧ Takes inWord pattern x r := by
  induction pattern generalizing inWord t x with
  | nil =>
      rw [tries, List.mem_singleton, Prod.mk.injEq, Takes]
      constructor
      · rintro ⟨rfl, rfl⟩
        exact ⟨rfl, rfl⟩
      · rintro ⟨rfl, rfl⟩
        exact ⟨rfl, rfl⟩
  | cons step pattern ih =>
      simp only [tries, List.mem_flatMap, List.mem_map, Takes]
      constructor
      · rintro ⟨⟨y, v⟩, hstep, ⟨z, w⟩, hrest, hp⟩
        obtain ⟨rfl, rfl⟩ := Prod.mk.inj hp
        obtain ⟨rfl, hz⟩ := ih.mp hrest
        obtain ⟨rfl, hy⟩ := Step.mem_tries_iff.mp hstep
        exact ⟨(List.append_assoc ..).symm, y, z, rfl, hy, hz⟩
      · rintro ⟨rfl, y, z, rfl, hy, hz⟩
        exact ⟨(y, z ++ r), Step.mem_tries_iff.mpr ⟨by simp, hy⟩, (z, r), ih.mpr ⟨rfl, hz⟩, rfl⟩

theorem takes_append_iff {inWord : Bool} {p q : List Step} {x r : Text} :
    Takes inWord (p ++ q) x r ↔
      ∃ y z, x = y ++ z ∧ Takes inWord p y (z ++ r) ∧ Takes (inWordAfter inWord y) q z r := by
  induction p generalizing inWord x with
  | nil =>
      constructor
      · intro h
        exact ⟨[], x, rfl, rfl, h⟩
      · rintro ⟨y, z, rfl, rfl, h⟩
        exact h
  | cons step p ih =>
      simp only [List.cons_append, Takes]
      constructor
      · rintro ⟨y, z, rfl, hy, hz⟩
        obtain ⟨z, z', rfl, hz, hz'⟩ := ih.mp hz
        rw [List.append_assoc] at hy
        refine ⟨y ++ z, z', by simp, ⟨y, z, rfl, hy, hz⟩, ?_⟩
        rw [inWordAfter_append]
        exact hz'
      · rintro ⟨_, z', rfl, ⟨y, z, rfl, hy, hz⟩, hz'⟩
        rw [inWordAfter_append] at hz'
        rw [← List.append_assoc] at hy
        exact ⟨y, z ++ z', by simp, hy, ih.mpr ⟨z, z', rfl, hz, hz'⟩⟩

theorem takes_literal_iff {inWord : Bool} {keyword x r : Text} :
    Takes inWord (literal keyword) x r ↔ x.map fold = keyword := by
  induction keyword generalizing inWord x with
  | nil => simp [literal, Takes]
  | cons k keyword ih =>
      change (∃ y z, x = y ++ z ∧ (∃ c, y = [c] ∧ (fold c == k) = true) ∧
        Takes (inWordAfter inWord y) (literal keyword) z r) ↔ _
      simp only [ih, beq_iff_eq]
      constructor
      · rintro ⟨_, z, rfl, ⟨c, rfl, rfl⟩, rfl⟩
        rfl
      · intro h
        obtain ⟨c, z, rfl, hc, hz⟩ := List.map_eq_cons_iff.mp h
        exact ⟨[c], z, rfl, ⟨c, rfl, hc⟩, hz⟩

theorem takes_nil_iff {inWord : Bool} {x r : Text} : Takes inWord [] x r ↔ x = [] :=
  Iff.rfl

theorem takes_one_iff {inWord : Bool} {accepts : Char → Bool} {p : List Step} {x r : Text} :
    Takes inWord (.one accepts :: p) x r ↔
      ∃ c z, x = c :: z ∧ accepts c = true ∧ Takes (isWord c) p z r := by
  constructor
  · rintro ⟨_, z, rfl, ⟨c, rfl, hc⟩, hz⟩
    exact ⟨c, z, rfl, hc, hz⟩
  · rintro ⟨c, z, rfl, hc, hz⟩
    exact ⟨[c], z, rfl, ⟨c, rfl, hc⟩, hz⟩

theorem takes_most_iff {inWord : Bool} {accepts : Char → Bool} {p : List Step} {x r : Text} :
    Takes inWord (.most accepts :: p) x r ↔
      ∃ y z, x = y ++ z ∧ (∀ c ∈ y, accepts c = true) ∧ Takes (inWordAfter inWord y) p z r :=
  Iff.rfl

theorem takes_fewest_iff {inWord : Bool} {accepts : Char → Bool} {p : List Step} {x r : Text} :
    Takes inWord (.fewest accepts :: p) x r ↔
      ∃ y z, x = y ++ z ∧ (∀ c ∈ y, accepts c = true) ∧ Takes (inWordAfter inWord y) p z r :=
  Iff.rfl

theorem takes_edge_iff {inWord : Bool} {p : List Step} {x r : Text} :
    Takes inWord (.edge :: p) x r ↔ inWord = endsWord (x ++ r) ∧ Takes inWord p x r := by
  constructor
  · rintro ⟨_, z, rfl, ⟨rfl, hedge⟩, hz⟩
    exact ⟨hedge, hz⟩
  · rintro ⟨hedge, hx⟩
    exact ⟨[], x, rfl, ⟨rfl, hedge⟩, hx⟩

/-! ## The reading that backtracking comes to -/

theorem head?_eq_of_mem_iff {α : Type} {l : List α} {o : Option α} (h : ∀ x, x ∈ l ↔ o = some x) :
    l.head? = o := by
  cases l with
  | nil =>
      cases o with
      | none => rfl
      | some x => exact absurd ((h x).mpr rfl) List.not_mem_nil
  | cons x l => exact ((h x).mp List.mem_cons_self).symm

/-- Readings that are all the same are tried in vain from the second one on. -/
theorem head?_flatMap_of_mem_iff {α β : Type} {l : List α} {o : Option α}
    (h : ∀ x, x ∈ l ↔ o = some x) (f : α → List β) :
    (l.flatMap f).head? = o.bind fun x => (f x).head? := by
  rw [List.head?_flatMap]
  cases hl : l.head? with
  | none =>
      obtain rfl := List.head?_eq_none_iff.mp hl
      rw [← head?_eq_of_mem_iff h]
      rfl
  | some x =>
      have ho : o = some x := (head?_eq_of_mem_iff h).symm.trans hl
      rw [ho, Option.bind_some]
      cases hx : (f x).head? with
      | none =>
          refine List.findSome?_eq_none_iff.mpr fun y hy => ?_
          obtain rfl := Option.some.inj (ho.symm.trans ((h y).mp hy))
          exact hx
      | some b =>
          obtain ⟨rest, rfl⟩ := List.head?_eq_some_iff.mp hl
          rw [List.findSome?_cons, hx]

/-- A pattern that takes exactly the tags of a reader has no reading but the reader's. -/
theorem Reads.mem_tries_iff {read : Text → Option (Text × Text)} {tag : Text → Prop}
    (hr : Reads read tag) {pattern : List Step} {inWord : Bool}
    (hp : ∀ x r, Takes inWord pattern x r ↔ tag x) (t : Text) (p : Text × Text) :
    p ∈ tries inWord pattern t ↔ read t = some p := by
  rw [Text.mem_tries_iff, hp, hr t p.1 p.2]

/-- A run of anything that is tried shortest first makes a leftmost search. -/
theorem findSome?_cuts {α : Type} (here : Text → Option (α × Text)) (t : Text) :
    (cuts (fun _ => true) t).findSome? (fun p => (here p.2).map fun q => ⟨p.1, q.1, q.2⟩) =
      findFirst here t := by
  induction t with
  | nil => cases h : here [] <;> simp [cuts, findFirst, findFrom, h]
  | cons c t ih =>
      rw [cuts, if_pos rfl, List.findSome?_cons, List.findSome?_map]
      cases hc : here (c :: t) with
      | some q => exact (findFirst_append_of_silent (silent_nil here _) hc).symm
      | none =>
          have hs : Silent here [c] t := silent_cons_iff.mpr ⟨hc, silent_nil here t⟩
          change _ = findFirst here ([c] ++ t)
          rw [findFirst_append hs, ← ih, List.map_findSome?]
          refine congrArg (List.findSome? · _) (funext fun p => ?_)
          simp only [Function.comp_apply, Option.map_map]
          rfl

/-- Where the first readings are those of a reader, a search is the reader's search. -/
theorem search_eq_findFirst {α : Type} {readings : Bool → Text → List (α × Text)}
    {here : Text → Option (α × Text)} (h : ∀ inWord t, (readings inWord t).head? = here t)
    (t : Text) : search readings t = findFirst here t := by
  rw [← findSome?_cuts here t]
  simp only [search, h]

end PageManifest.Text
