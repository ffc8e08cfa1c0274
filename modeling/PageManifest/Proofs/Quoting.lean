import PageManifest.Toml.Document
import PageManifest.Toml.Written

/-! # Written strings are read back

A text is written as a basic string on one line, in which quotes, backslashes and
controls are escaped.  Reading takes the escapes back one by one, whatever follows the
closing quote.
-/

namespace PageManifest.Toml

variable {t u : Text} {c e : Char}

/-- Basic strings on one line. -/
def basic : StringKind :=
  ⟨'"', false⟩

/-! ## Single characters -/

theorem body_close (rest : Text) : basic.body ('"' :: rest) = .ok ([], rest) := by
  rw [StringKind.body]
  rfl

theorem body_escape {s after : Text} (h : escape? t = some (e, u))
    (hbody : basic.body u = .ok (s, after)) : basic.body ('\\' :: t) = .ok (e :: s, after) := by
  have hquote : ¬ '\\' = basic.quote := by decide
  rw [StringKind.body, if_neg hquote, if_pos ⟨rfl, rfl⟩, if_neg fun hmulti => by cases hmulti.1]
  split
  · rename_i e' u' h'
    obtain ⟨rfl, rfl⟩ := Prod.mk.inj (Option.some.inj (h'.symm.trans h))
    rw [hbody]
    rfl
  · rename_i h'
    rw [h] at h'
    cases h'

theorem body_plain {s after : Text} (hquote : c ≠ '"') (hslash : c ≠ '\\')
    (hcontrol : isControl c = false) (hbody : basic.body t = .ok (s, after)) :
    basic.body (c :: t) = .ok (c :: s, after) := by
  have hplain : ¬ (isControl c = true ∧ ¬ (basic.multi ∧ (c = '\n' ∨ c = '\r'))) := by
    rw [hcontrol]
    exact fun h => by cases h.1
  have hopen : ¬ c = basic.quote := hquote
  rw [StringKind.body, if_neg hopen, if_neg fun h => hslash h.1, if_neg hplain, hbody]
  rfl

/-! ## Escapes -/

/-- A small number in four digits is read back. -/
theorem escape?_hexDigits {n : Nat} (hn : n < 0x80) (rest : Text) :
    escape? ('u' :: Text.hexDigits 4 n ++ rest) = some (Char.ofNat n, rest) := by
  have hdigits : ∀ n < 0x80, (Text.hexDigits 4 n).all (fun d => (Text.hexValue? d).isSome) = true ∧
      Text.hexNumber (Text.hexDigits 4 n) = n ∧ n.isValidChar := by decide
  obtain ⟨hall, hnumber, hvalid⟩ := hdigits n hn
  have hlength := Text.length_hexDigits 4 n
  have htake : (Text.hexDigits 4 n ++ rest).take 4 = Text.hexDigits 4 n :=
    List.take_left' hlength
  have hdrop : (Text.hexDigits 4 n ++ rest).drop 4 = rest := List.drop_left' hlength
  change hexEscape? 4 (Text.hexDigits 4 n ++ rest) = _
  rw [hexEscape?]
  simp only [htake, hdrop, hlength, hall, hnumber, hvalid, and_self, if_true]

/-- How a character is written in a string: by an escape on one line, or by itself. -/
inductive IsWritten (c : Char) : Text → Prop
  | escape {u : Text} (h : ∀ rest, escape? (u ++ rest) = some (c, rest)) (hline : '\r' ∉ u) :
      IsWritten c ('\\' :: u)
  | plain (hquote : c ≠ '"') (hslash : c ≠ '\\') (hcontrol : isControl c = false) :
      IsWritten c [c]

theorem isWritten_short {c d : Char} (h : ∀ rest, escape? (d :: rest) = some (c, rest))
    (hline : d ≠ '\r') : IsWritten c ['\\', d] :=
  .escape h (by simp [Ne.symm hline])

theorem isWritten_control (h : c.toNat < 0x20 ∨ c.toNat = 0x7f) :
    IsWritten c ('\\' :: 'u' :: Text.hexDigits 4 c.toNat) := by
  have hdigits : ∀ n < 0x80, '\r' ∉ 'u' :: Text.hexDigits 4 n := by decide
  have hsmall : c.toNat < 0x80 := by omega
  refine .escape (fun rest => ?_) (hdigits _ hsmall)
  rw [escape?_hexDigits hsmall, Char.ofNat_toNat]

theorem isWritten_writtenChar (c : Char) : IsWritten c (writtenChar c) := by
  unfold writtenChar
  split
  · rename_i hc
    subst hc
    exact isWritten_short (fun _ => rfl) (by decide)
  · rename_i hquote
    split
    · rename_i hc
      subst hc
      exact isWritten_short (fun _ => rfl) (by decide)
    · rename_i hslash
      split
      · rename_i hc
        subst hc
        exact isWritten_short (fun _ => rfl) (by decide)
      · split
        · rename_i hc
          subst hc
          exact isWritten_short (fun _ => rfl) (by decide)
        · split
          · rename_i hc
            subst hc
            exact isWritten_short (fun _ => rfl) (by decide)
          · split
            · rename_i hc
              subst hc
              exact isWritten_short (fun _ => rfl) (by decide)
            · split
              · rename_i hc
                subst hc
                exact isWritten_short (fun _ => rfl) (by decide)
              · split
                · rename_i hcontrol
                  exact isWritten_control hcontrol
                · rename_i hcontrol
                  refine .plain hquote hslash ?_
                  simp only [isControl, not_or] at hcontrol ⊢
                  simp [hcontrol]

/-! ## Whole strings -/

/-- A character as it is written in a string is read back. -/
theorem body_writtenChar {s after : Text} (c : Char) (hbody : basic.body t = .ok (s, after)) :
    basic.body (writtenChar c ++ t) = .ok (c :: s, after) := by
  have hwritten := isWritten_writtenChar c
  generalize writtenChar c = w at hwritten
  cases hwritten with
  | escape h => exact body_escape (h t) hbody
  | plain hquote hslash hcontrol => exact body_plain hquote hslash hcontrol hbody

/-- A text as it is written in a string is read back, whatever follows the closing quote. -/
theorem body_written (t rest : Text) :
    basic.body (t.flatMap writtenChar ++ '"' :: rest) = .ok (t, rest) := by
  induction t with
  | nil => exact body_close rest
  | cons c t ih =>
      rw [List.flatMap_cons, List.append_assoc]
      exact body_writtenChar c ih

theorem string_of_body {w s after : Text} (hsingle : ∀ u, w ≠ '"' :: '"' :: u)
    (hbody : basic.body w = .ok (s, after)) : string '"' w = .ok (basic, s, after) := by
  have hread : ∀ w, basic.body w = .ok (s, after) →
      (StringKind.body ⟨'"', false⟩ w).map (Prod.mk (⟨'"', false⟩ : StringKind)) =
        .ok (basic, s, after) := by
    intro w hw
    change (basic.body w).map _ = _
    rw [hw]
    rfl
  unfold string
  dsimp only
  split
  · rename_i a b u
    have hquotes : ¬ (a = '"' ∧ b = '"') := by
      rintro ⟨rfl, rfl⟩
      exact hsingle u rfl
    rw [if_neg hquotes]
    exact hread _ hbody
  · exact hread _ hbody

theorem string_written (t : Text) {rest : Text} (hrest : rest.head? ≠ some '"') :
    string '"' (t.flatMap writtenChar ++ '"' :: rest) = .ok (basic, t, rest) := by
  refine string_of_body (fun u h => ?_) (body_written t rest)
  cases t with
  | nil =>
      obtain rfl := (List.cons.inj h).2
      exact hrest rfl
  | cons c t =>
      have hwritten := isWritten_writtenChar c
      rw [List.flatMap_cons, List.append_assoc] at h
      generalize writtenChar c = w at hwritten h
      cases hwritten with
      | escape =>
          obtain ⟨hslash, -⟩ := List.cons.inj h
          exact absurd hslash (by decide)
      | plain hquote => exact hquote (List.cons.inj h).1

/-- Written strings stand on one line, and hold no return either. -/
theorem return_not_mem_written (t : Text) : '\r' ∉ t.flatMap writtenChar := by
  intro h
  obtain ⟨c, -, hc⟩ := List.mem_flatMap.mp h
  have hwritten := isWritten_writtenChar c
  generalize writtenChar c = w at hwritten hc
  cases hwritten with
  | escape _ hline =>
      rcases List.mem_cons.mp hc with hslash | hmem
      · exact absurd hslash (by decide)
      · exact hline hmem
  | plain _ _ hcontrol =>
      obtain rfl := List.mem_singleton.mp hc
      exact absurd hcontrol (by decide)

end PageManifest.Toml
