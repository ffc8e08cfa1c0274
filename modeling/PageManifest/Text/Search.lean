import PageManifest.Text.Word

/-!
# Searching text

Leftmost search, and the two ways in which markup is compared: keywords without
regard to case, and everything else exactly.
-/

namespace PageManifest.Text

/--
The lower-case letter that a character is compared as.  Besides the capitals of
ASCII, the dotted capital and dotless small I, the long S and the kelvin sign
are spellings of `i`, `s` and `k`.
-/
def fold (c : Char) : Char :=
  let n := c.toNat
  if 0x41 ≤ n ∧ n ≤ 0x5a then Char.ofNat (n + 0x20)
  else if n = 0x130 ∨ n = 0x131 then 'i'
  else if n = 0x17f then 's'
  else if n = 0x212a then 'k'
  else c

/-- What follows `keyword` at the start of a text; `keyword` is in lower case. -/
def afterKeyword : (keyword : Text) → Text → Option Text
  | [], t => some t
  | _ :: _, [] => none
  | k :: ks, c :: t => if fold c = k then afterKeyword ks t else none

/-- What follows an exact prefix at the start of a text. -/
def afterExact : (pattern : Text) → Text → Option Text
  | [], t => some t
  | _ :: _, [] => none
  | p :: ps, c :: t => if c = p then afterExact ps t else none

def hasInfix (pattern : Text) : Text → Bool
  | [] => pattern.isEmpty
  | c :: t => (afterExact pattern (c :: t)).isSome || hasInfix pattern t

/-- The parts of a text in front of and behind the first occurrence of a character. -/
def splitAtChar (sep : Char) (t : Text) : Option (Text × Text) :=
  match t.dropWhile (· ≠ sep) with
  | [] => none
  | _ :: after => some (t.takeWhile (· ≠ sep), after)

/--
Walks a text until `here` recognises something, counting the characters passed.
`here` is given the text from a place on and returns what it recognised together
with the rest.
-/
def findFrom {α : Type} (here : Text → Option (α × Text)) (passed : Nat) :
    Text → Option (Nat × α × Text)
  | [] => (here []).map fun (found, rest) => (passed, found, rest)
  | c :: t =>
      match here (c :: t) with
      | some (found, rest) => some (passed, found, rest)
      | none => findFrom here (passed + 1) t

/-- Something recognised in a text, with the text in front of it and behind it. -/
structure Found (α : Type) where
  before : Text
  item : α
  after : Text

/-- The leftmost place where `here` recognises something. -/
def findFirst {α : Type} (here : Text → Option (α × Text)) (t : Text) : Option (Found α) :=
  (findFrom here 0 t).map fun (passed, item, rest) => ⟨t.take passed, item, rest⟩

@[simp] theorem afterKeyword_nil (t : Text) : afterKeyword [] t = some t := by
  cases t <;> rfl

@[simp] theorem afterExact_nil (t : Text) : afterExact [] t = some t := by
  cases t <;> rfl

theorem afterKeyword_eq_some {k t rest : Text} (h : afterKeyword k t = some rest) :
    t.drop k.length = rest ∧ t.length = k.length + rest.length := by
  induction k generalizing t with
  | nil =>
      simp at h
      simp [h]
  | cons a k ih =>
      cases t with
      | nil => simp [afterKeyword] at h
      | cons c t =>
          by_cases hc : fold c = a
          · simp [afterKeyword, hc] at h
            have := ih h
            simp [this.1, this.2]
            omega
          · simp [afterKeyword, hc] at h

theorem splitAtChar_eq_some {sep : Char} {t before after : Text}
    (h : splitAtChar sep t = some (before, after)) :
    t = before ++ sep :: after := by
  unfold splitAtChar at h
  split at h
  · simp at h
  · rename_i c rest hd
    have hc : c = sep := by
      have := List.head?_dropWhile_not (fun x => decide (x ≠ sep)) t
      rw [hd] at this
      simpa using this
    simp at h
    have := List.takeWhile_append_dropWhile (p := fun x => decide (x ≠ sep)) (l := t)
    rw [hd, hc] at this
    rw [← h.1, ← h.2]
    simpa using this.symm

theorem findFrom_rest_length {α : Type} {here : Text → Option (α × Text)}
    (hlen : ∀ t item rest, here t = some (item, rest) → rest.length < t.length)
    {t rest : Text} {passed n : Nat} {item : α}
    (h : findFrom here passed t = some (n, item, rest)) : rest.length < t.length := by
  induction t generalizing passed with
  | nil =>
      cases hh : here [] with
      | none => simp [findFrom, hh] at h
      | some r =>
          have := hlen [] r.1 r.2 hh
          simp at this
  | cons c t ih =>
      cases hh : here (c :: t) with
      | none =>
          simp only [findFrom, hh] at h
          have := ih h
          simp
          omega
      | some r =>
          simp only [findFrom, hh, Option.some.injEq, Prod.mk.injEq] at h
          have := hlen (c :: t) r.1 r.2 hh
          rw [h.2.2] at this
          exact this

theorem findFirst_after_length {α : Type} {here : Text → Option (α × Text)}
    (hlen : ∀ t item rest, here t = some (item, rest) → rest.length < t.length)
    {t : Text} {f : Found α} (h : findFirst here t = some f) : f.after.length < t.length := by
  cases hf : findFrom here 0 t with
  | none => simp [findFirst, hf] at h
  | some r =>
      simp only [findFirst, hf, Option.map_some, Option.some.injEq] at h
      rw [← h]
      have hr : findFrom here 0 t = some (r.1, r.2.1, r.2.2) := hf
      exact findFrom_rest_length hlen hr

end PageManifest.Text
