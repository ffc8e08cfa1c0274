import PageManifest.Proofs.Readings
import PageManifest.Proofs.Trim

/-! # Attribute values

An escaped text can stand between quotes: it holds no character that would end the
value or the tag, and unescaping gives the text back.  So the target of a written
reference element is what was put in.
-/

namespace PageManifest

namespace Text

theorem afterExact_append (p t : Text) : afterExact p (p ++ t) = some t := by
  induction p with
  | nil => exact afterExact_nil t
  | cons c p ih => rw [List.cons_append, afterExact, if_pos rfl, ih]

theorem eq_append_of_afterExact {p t rest : Text} (h : afterExact p t = some rest) :
    t = p ++ rest := by
  induction p generalizing t with
  | nil =>
      rw [afterExact_nil, Option.some.injEq] at h
      exact h
  | cons a p ih =>
      cases t with
      | nil => cases h
      | cons c t =>
          by_cases hc : c = a
          · rw [afterExact, if_pos hc] at h
            rw [hc, ih h, List.cons_append]
          · rw [afterExact, if_neg hc] at h
            cases h

theorem isSome_afterExact_iff {p t : Text} : (afterExact p t).isSome = true ↔ p <+: t := by
  constructor
  · intro h
    obtain ⟨rest, hrest⟩ := Option.isSome_iff_exists.mp h
    exact ⟨rest, (eq_append_of_afterExact hrest).symm⟩
  · rintro ⟨rest, rfl⟩
    rw [afterExact_append]
    rfl

theorem hasInfix_iff {p t : Text} : hasInfix p t = true ↔ p <:+: t := by
  induction t with
  | nil => simp [hasInfix]
  | cons c t ih => rw [hasInfix, Bool.or_eq_true, isSome_afterExact_iff, ih, List.infix_cons_iff]

end Text

namespace Markup

/-! ## Escaping -/

/-- What is written for a character holds none that ends a value or a tag. -/
theorem not_mem_escapeChar (c : Char) {d : Char} (hd : d ∈ ['<', '>', '"', '\'']) :
    d ∉ escapeChar c := by
  simp only [List.mem_cons, List.not_mem_nil, or_false] at hd
  have hentities : d ∉ "&amp;".toList ∧ d ∉ "&lt;".toList ∧ d ∉ "&gt;".toList ∧
      d ∉ "&quot;".toList ∧ d ∉ "&#x27;".toList := by
    rcases hd with rfl | rfl | rfl | rfl <;> decide
  obtain ⟨hamp, hlt, hgt, hquot, hsingle⟩ := hentities
  unfold escapeChar
  split
  · exact hamp
  · split
    · exact hlt
    · split
      · exact hgt
      · split
        · exact hquot
        · split
          · exact hsingle
          · rename_i hlt' hgt' hquot' hsingle'
            rw [List.mem_singleton]
            rintro rfl
            rcases hd with h | h | h | h
            · exact hlt' h
            · exact hgt' h
            · exact hquot' h
            · exact hsingle' h

theorem not_mem_escape (t : Text) {d : Char} (hd : d ∈ ['<', '>', '"', '\'']) : d ∉ escape t := by
  intro h
  obtain ⟨c, -, hc⟩ := List.mem_flatMap.mp h
  exact not_mem_escapeChar c hd hc

/-- What is written for a character begins with it or with an ampersand. -/
theorem escapeChar_head (c : Char) : ∃ d tail, escapeChar c = d :: tail ∧ (d = '&' ∨ d = c) := by
  unfold escapeChar
  repeat' split
  all_goals simp

theorem escape_cons (c : Char) (t : Text) : escape (c :: t) = escapeChar c ++ escape t :=
  List.flatMap_cons

theorem escapeChar_last (c : Char) :
    ∃ init d, escapeChar c = init ++ [d] ∧ (d = ';' ∨ d = c) := by
  have hentity : ∀ init : Text, ∃ init' d, init ++ [';'] = init' ++ [d] ∧ (d = ';' ∨ d = c) :=
    fun init => ⟨init, ';', rfl, .inl rfl⟩
  unfold escapeChar
  split
  · exact hentity "&amp".toList
  · split
    · exact hentity "&lt".toList
    · split
      · exact hentity "&gt".toList
      · split
        · exact hentity "&quot".toList
        · split
          · exact hentity "&#x27".toList
          · exact ⟨[], c, rfl, .inr rfl⟩

theorem escapeChar_of_blank {c : Char} (h : Text.isBlank c = true) : escapeChar c = [c] := by
  have hplain : ∀ d ∈ ['&', '<', '>', '"', '\''], c ≠ d := by
    rintro d hd rfl
    revert h
    simp only [List.mem_cons, List.not_mem_nil, or_false] at hd
    rcases hd with rfl | rfl | rfl | rfl | rfl <;> decide
  unfold escapeChar
  rw [if_neg (hplain '&' (by decide)), if_neg (hplain '<' (by decide)),
    if_neg (hplain '>' (by decide)), if_neg (hplain '"' (by decide)),
    if_neg (hplain '\'' (by decide))]

/-- Escaping neither makes nor hides blanks at an end. -/
theorem trimStart_escape (t : Text) : Text.trimStart (escape t) = escape (Text.trimStart t) := by
  induction t with
  | nil => rfl
  | cons c t ih =>
      cases hc : Text.isBlank c with
      | true =>
          rw [escape_cons, escapeChar_of_blank hc, List.singleton_append,
            Text.trimStart_cons_of_blank hc, Text.trimStart_cons_of_blank hc, ih]
      | false =>
          obtain ⟨d, tail, hescaped, hd⟩ := escapeChar_head c
          have hd' : Text.isBlank d = false := by
            rcases hd with rfl | rfl
            · rfl
            · exact hc
          rw [Text.trimStart_cons_of_not_blank hc, escape_cons, hescaped, List.cons_append]
          exact Text.trimStart_cons_of_not_blank hd' _

theorem trimEnd_escape (t : Text) : Text.trimEnd (escape t) = escape (Text.trimEnd t) := by
  -- The end of a text is the start of the text that is turned around.
  have hturned : ∀ s : Text,
      Text.trimEnd (escape s.reverse) = escape (Text.trimEnd s.reverse) := by
    intro s
    induction s with
    | nil => rfl
    | cons c s ih =>
        have hone : escape (s.reverse ++ [c]) = escape s.reverse ++ escapeChar c := by
          rw [escape_append, escape_cons, escape_nil, List.append_nil]
        rw [List.reverse_cons, hone]
        cases hc : Text.isBlank c with
        | true =>
            rw [escapeChar_of_blank hc, Text.trimEnd_concat_of_blank hc,
              Text.trimEnd_concat_of_blank hc, ih]
        | false =>
            obtain ⟨init, d, hescaped, hd⟩ := escapeChar_last c
            have hd' : Text.isBlank d = false := by
              rcases hd with rfl | rfl
              · rfl
              · exact hc
            rw [Text.trimEnd_concat_of_not_blank hc, hone, hescaped, ← List.append_assoc]
            exact Text.trimEnd_concat_of_not_blank hd' _
  have h := hturned t.reverse
  rwa [List.reverse_reverse] at h

theorem trim_escape (t : Text) : Text.trim (escape t) = escape (Text.trim t) := by
  rw [Text.trim, trimStart_escape, trimEnd_escape, Text.trim]

theorem escape_eq_nil_iff {t : Text} : escape t = [] ↔ t = [] := by
  constructor
  · intro h
    cases t with
    | nil => rfl
    | cons c t =>
        obtain ⟨d, tail, hescaped, -⟩ := escapeChar_head c
        rw [escape_cons, hescaped] at h
        cases h
  · rintro rfl
    exact escape_nil

/-- A reference that is recognised is replaced by what it stands for. -/
theorem unescape_reference (name : Text) {c : Char} {t : Text}
    (h : reference? (name ++ t) = .ok (some ([c], name.length))) :
    unescape ('&' :: (name ++ t)) = (unescape t).map (c :: ·) := by
  rw [unescape, if_pos rfl, h]
  simp only [List.drop_left, List.singleton_append]

theorem unescape_of_ne {c : Char} (h : c ≠ '&') (t : Text) :
    unescape (c :: t) = (unescape t).map (c :: ·) := by
  rw [unescape, if_neg h]

theorem unescape_escapeChar (c : Char) (t : Text) :
    unescape (escapeChar c ++ t) = (unescape t).map (c :: ·) := by
  unfold escapeChar
  split
  · rename_i h
    rw [h]
    exact unescape_reference "amp;".toList rfl
  · rename_i hplain
    split
    · rename_i h
      rw [h]
      exact unescape_reference "lt;".toList rfl
    · split
      · rename_i h
        rw [h]
        exact unescape_reference "gt;".toList rfl
      · split
        · rename_i h
          rw [h]
          exact unescape_reference "quot;".toList rfl
        · split
          · rename_i h
            rw [h]
            exact unescape_reference "#x27;".toList rfl
          · exact unescape_of_ne hplain t

theorem unescape_escape (t : Text) : unescape (escape t) = .ok t := by
  induction t with
  | nil => rw [escape_nil, unescape]
  | cons c t ih =>
      rw [escape_cons, unescape_escapeChar, ih]
      rfl

/-! ## The target of a written reference -/

/-- What a written reference element has in front of its target. -/
def referenceLead : Text :=
  "<link ".toList ++ relationAttribute ++ " href=\"".toList

theorem referenceTag_eq (target : Text) :
    referenceTag target = referenceLead ++ (escape target ++ "\">".toList) := by
  unfold referenceTag referenceLead
  simp only [List.append_assoc]

/-- An attribute begins with a letter, so text without that letter is passed. -/
theorem hrefFrom_append {s : Text} (hs : ∀ c ∈ s, Text.fold c ≠ 'h') (passed : Text)
    (inWord : Bool) (t : Text) :
    hrefFrom passed inWord (s ++ ' ' :: t) = hrefFrom (' ' :: (s.reverse ++ passed)) false t := by
  have hstep : ∀ {c : Char}, Text.fold c ≠ 'h' → ∀ passed inWord u,
      hrefFrom passed inWord (c :: u) = hrefFrom (c :: passed) (Text.isWord c) u := by
    intro c hc passed inWord u
    have hquiet : hrefHere? (c :: u) = none := by
      simp [hrefHere?, Text.afterKeyword, hc]
    rw [hrefFrom, hquiet]
    cases inWord <;> rfl
  induction s generalizing passed inWord with
  | nil => exact hstep (by decide) passed inWord t
  | cons c s ih =>
      rw [List.cons_append, hstep (hs c (by simp)), ih fun d hd => hs d (by simp [hd])]
      simp

theorem hrefHere?_quoted {value : Text} (h : '"' ∉ value) (rest : Text) :
    hrefHere? ("href=\"".toList ++ (value ++ '"' :: rest)) = some ⟨"href=\"".toList, value⟩ := by
  have hlead : IsLead hrefKeyword '"' ("href".toList ++ ['=', '"']) :=
    isLead_named rfl
  exact hrefHere?_eq_some_iff.mpr ⟨'"', rest, rfl, hlead, h⟩

theorem hrefFrom_of_here {c : Char} {t : Text} {a : Attribute} (h : hrefHere? (c :: t) = some a)
    (passed : Text) :
    hrefFrom passed false (c :: t) = some ⟨passed.reverse ++ a.lead, a.value⟩ := by
  rw [hrefFrom]
  simp only [Bool.false_eq_true, if_false, h]

theorem href?_referenceTag (target : Text) :
    href? (referenceTag target) = some ⟨referenceLead, escape target⟩ := by
  have hquote : '"' ∉ escape target := not_mem_escape target (by decide)
  have hfirst := hrefFrom_of_here (c := 'h') (hrefHere?_quoted hquote ['>'])
  have hfree : ∀ c ∈ "<link ".toList ++ relationAttribute, Text.fold c ≠ 'h' := by
    have hall : ("<link ".toList ++ relationAttribute).all (Text.fold · != 'h') = true := rfl
    intro c hc
    exact bne_iff_ne.mp (List.all_eq_true.mp hall c hc)
  have hpassed := (hrefFrom_append hfree [] false _).trans (hfirst _)
  rw [referenceTag_eq]
  exact hpassed

end Markup

end PageManifest
