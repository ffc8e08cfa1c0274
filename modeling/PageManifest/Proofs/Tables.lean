import PageManifest.Proofs.Quoting
import PageManifest.Proofs.Trim

/-! # Written tables are read back

A table is written as a header and a line for each of its entries.  Reading takes the
header and the lines one after the other, and what it has taken in after each line is
the table of the entries so far.  A comment in front of the table is skipped.
-/

namespace PageManifest.Toml

variable {k name t rest : Text} {c stop : Char}

/-! ## Keys -/

/-- A key that is written as it is, without quotes. -/
structure IsBareKey (k : Text) : Prop where
  nonempty : k ≠ []
  bare : ∀ c ∈ k, isBareKeyChar c = true

theorem IsBareKey.of_all (hne : k ≠ []) (hall : k.all isBareKeyChar = true) : IsBareKey k :=
  ⟨hne, List.all_eq_true.mp hall⟩

theorem toNat_of_bare (h : isBareKeyChar c = true) :
    0x2d ≤ c.toNat ∧ c.toNat < 0x7b ∧ c.toNat ≠ 0x2e ∧ c.toNat ≠ 0x5b := by
  change (((decide (65 ≤ c.val ∧ c.val ≤ 90) || (97 ≤ c.val && c.val ≤ 122)) ||
    (48 ≤ c.val && c.val ≤ 57)) || c == '-' || c == '_') = true at h
  simp only [Bool.or_eq_true, Bool.and_eq_true, decide_eq_true_eq, beq_iff_eq,
    UInt32.le_iff_toNat_le] at h
  have hval : c.toNat = c.val.toNat := rfl
  rcases h with (((h | h) | h) | rfl) | rfl
  · simp at h
    omega
  · simp at h
    omega
  · simp at h
    omega
  · decide
  · decide

theorem ne_of_bare (h : isBareKeyChar c = true) (hstop : isBareKeyChar stop = false) :
    c ≠ stop := by
  rintro rfl
  rw [h] at hstop
  cases hstop

theorem not_blank_of_bare (h : isBareKeyChar c = true) : Text.isBlank c = false := by
  obtain ⟨hlow, hhigh, -⟩ := toNat_of_bare h
  simp only [Text.isBlank, Bool.or_eq_false_iff, Bool.and_eq_false_iff, decide_eq_false_iff_not,
    beq_eq_false_iff_ne]
  omega

theorem not_spaceOrBreak_of_bare (h : isBareKeyChar c = true) : isSpaceOrBreak c = false := by
  simp only [isSpaceOrBreak, isSpace, Bool.or_eq_false_iff, beq_eq_false_iff_ne]
  exact ⟨⟨⟨ne_of_bare h rfl, ne_of_bare h rfl⟩, ne_of_bare h rfl⟩, ne_of_bare h rfl⟩

theorem not_space_of_bare (h : isBareKeyChar c = true) : isSpace c = false := by
  have hspace := not_spaceOrBreak_of_bare h
  simp only [isSpaceOrBreak, Bool.or_eq_false_iff] at hspace
  exact hspace.1.1

theorem isBlank_of_isSpace (h : isSpace c = true) : Text.isBlank c = true := by
  simp only [isSpace, Bool.or_eq_true, beq_iff_eq] at h
  rcases h with rfl | rfl
  · decide
  · decide

theorem IsBareKey.trimEnd_append (h : IsBareKey k) {blanks : Text}
    (hblanks : ∀ c ∈ blanks, isSpace c = true) : Text.trimEnd (k ++ blanks) = k := by
  rw [Text.trimEnd_append_of_blank fun c hc => isBlank_of_isSpace (hblanks c hc)]
  apply Text.trimEnd_of_tight
  rintro s c rfl
  exact not_blank_of_bare (h.bare c (by simp))

/-- A bare key ends where something stands that belongs to no key. -/
theorem bareKeyPart_bare (h : IsBareKey k) {blanks : Text}
    (hblanks : ∀ c ∈ blanks, isSpace c = true) (hstop : isBareKeyChar stop = false)
    (hspace : isSpace stop = false) :
    bareKeyPart (k ++ blanks ++ stop :: rest) = .ok (k, stop :: rest) := by
  have hrun : (k ++ blanks ++ stop :: rest).takeWhile (fun c => isBareKeyChar c || isSpace c) =
      k ++ blanks := by
    rw [List.takeWhile_append_of_pos]
    · simp [hstop, hspace]
    · intro c hc
      rcases List.mem_append.mp hc with hc | hc
      · simp [h.bare c hc]
      · simp [hblanks c hc]
  have hsolid : ¬ (k.isEmpty || k.contains ' ') = true := by
    simp only [Bool.or_eq_true, List.isEmpty_iff, List.contains_iff_mem, not_or]
    refine ⟨h.nonempty, fun hc => ?_⟩
    have hbare := h.bare ' ' hc
    exact absurd hbare (by decide)
  rw [bareKeyPart, hrun, h.trimEnd_append hblanks, if_neg hsolid, List.drop_left]

theorem keyPart_bare (h : IsBareKey k) {blanks : Text}
    (hblanks : ∀ c ∈ blanks, isSpace c = true) (hstop : isBareKeyChar stop = false)
    (hspace : isSpace stop = false) :
    keyPart (k ++ blanks ++ stop :: rest) = .ok (k, stop :: rest) := by
  have hread : bareKeyPart (k ++ blanks ++ stop :: rest) = .ok (k, stop :: rest) :=
    bareKeyPart_bare h hblanks hstop hspace
  obtain ⟨c, k, rfl⟩ := List.exists_cons_of_ne_nil h.nonempty
  have hbare := h.bare c (by simp)
  simp only [List.cons_append] at hread ⊢
  rw [keyPart, List.dropWhile_cons_of_neg (by simp [not_space_of_bare hbare])]
  split
  · rename_i hquote
    exact absurd (List.cons.inj hquote).1 (ne_of_bare hbare rfl)
  · rename_i hquote
    exact absurd (List.cons.inj hquote).1 (ne_of_bare hbare rfl)
  · rw [hread]
    simp [Except.map, hspace]

theorem key_bare (h : IsBareKey k) {blanks : Text}
    (hblanks : ∀ c ∈ blanks, isSpace c = true) (hstop : isBareKeyChar stop = false)
    (hspace : isSpace stop = false) (hdot : stop ≠ '.') :
    key (k ++ blanks ++ stop :: rest) = .ok ([], k, stop :: rest) := by
  have hparts (fuel : Nat) :
      keyParts (fuel + 1) [] (k ++ blanks ++ stop :: rest) = .ok ([k], stop :: rest) := by
    rw [keyParts, keyPart_bare h hblanks hstop hspace]
    split
    · rename_i hpart
      cases hpart
    · rename_i hpart
      cases hpart
      exact absurd rfl hdot
    · rename_i hpart
      cases hpart
      rfl
  rw [key, hparts]
  rfl

/-! ## Statements -/

theorem value_written (fuel : Nat) (v rest : Text) :
    value (fuel + 1) (writtenText v ++ '\n' :: rest) = .ok (.text v, '\n' :: rest) := by
  have hstring : string '"' (v.flatMap writtenChar ++ '"' :: '\n' :: rest) =
      .ok (basic, v, '\n' :: rest) := string_written v (by simp)
  have hcut : writtenText v ++ '\n' :: rest =
      '"' :: (v.flatMap writtenChar ++ '"' :: '\n' :: rest) := by
    simp [writtenText]
  rw [hcut, value, hstring]
  rfl

/-- The line of an entry is read as the entry, whatever follows. -/
theorem statement_writtenPair (h : IsBareKey k) (v rest : Text) :
    statement (writtenPair k v ++ rest) = .ok (.pair [] k (.text v), rest) := by
  have hcut : writtenPair k v ++ rest =
      k ++ [' '] ++ '=' :: ' ' :: (writtenText v ++ '\n' :: rest) := by
    simp [writtenPair]
  have hkey : key (k ++ [' '] ++ '=' :: ' ' :: (writtenText v ++ '\n' :: rest)) =
      .ok ([], k, '=' :: ' ' :: (writtenText v ++ '\n' :: rest)) :=
    key_bare h (by simp [isSpace]) rfl rfl (by decide)
  have hequals : afterEquals ('=' :: ' ' :: (writtenText v ++ '\n' :: rest)) =
      .ok (writtenText v ++ '\n' :: rest) := rfl
  have hvalue := value_written (2 * (writtenText v ++ '\n' :: rest).length + 1) v rest
  obtain ⟨c, u, rfl⟩ := List.exists_cons_of_ne_nil h.nonempty
  have hopen : c ≠ '[' := ne_of_bare (h.bare c (by simp)) rfl
  rw [hcut]
  simp only [List.cons_append] at hkey ⊢
  unfold statement
  dsimp only
  split
  · rename_i hbracket
    exact absurd (List.cons.inj hbracket).1 hopen
  · rename_i hbracket
    exact absurd (List.cons.inj hbracket).1 hopen
  · rw [hkey]
    dsimp only
    rw [hequals]
    dsimp only
    rw [hvalue]
    rfl

theorem statement_header (h : IsBareKey name) (rest : Text) :
    statement ('[' :: name ++ ']' :: '\n' :: rest) = .ok (.header [] name, rest) := by
  have hkey : key (name ++ [] ++ ']' :: '\n' :: rest) = .ok ([], name, ']' :: '\n' :: rest) :=
    key_bare h (by simp) rfl rfl (by decide)
  obtain ⟨c, u, rfl⟩ := List.exists_cons_of_ne_nil h.nonempty
  have hopen : c ≠ '[' := ne_of_bare (h.bare c (by simp)) rfl
  rw [List.append_nil] at hkey
  simp only [List.cons_append] at hkey ⊢
  unfold statement
  dsimp only
  split
  · rename_i hbracket
    exact absurd (List.cons.inj (List.cons.inj hbracket).2).1 hopen
  · rename_i hbracket
    rw [← (List.cons.inj hbracket).2, hkey]
    rfl
  · rename_i hbracket
    exact absurd rfl (hbracket _)

/-! ## Blanks and comments -/

theorem skipAllBlanks_of_solid (hc : isSpaceOrBreak c = false) (hcomment : c ≠ '#') :
    skipAllBlanks (c :: t) = .ok (c :: t) := by
  rw [skipAllBlanks, skipBlanks, List.dropWhile_cons_of_neg (by simp [hc])]
  split
  · rename_i hopen
    exact absurd (List.cons.inj hopen).1 hcomment
  · rfl

/-- A comment is skipped together with the blanks behind it. -/
theorem skipBlanks_comment (fuel : Nat) (h : afterComment t = .ok rest) :
    skipBlanks (fuel + 1) ('#' :: t) = skipBlanks fuel rest := by
  rw [skipBlanks, List.dropWhile_cons_of_neg (by decide)]
  split
  · rename_i hopen
    cases hopen
    rw [h]
  · rename_i hopen
    exact absurd rfl (hopen _)

theorem afterComment_line (h : ∀ c ∈ t, isControl c = false) (rest : Text) :
    afterComment (t ++ '\n' :: rest) = .ok ('\n' :: rest) := by
  have hline : ∀ c ∈ t, (c ≠ '\n') := by
    rintro c hc rfl
    exact absurd (h _ hc) (by decide)
  have hplain : ¬ t.any isControl = true := by
    rw [List.any_eq_true]
    rintro ⟨c, hc, hcontrol⟩
    rw [h c hc] at hcontrol
    cases hcontrol
  have htake : (t ++ '\n' :: rest).takeWhile (· ≠ '\n') = t := by
    rw [List.takeWhile_append_of_pos (by simpa using hline)]
    simp
  have hdrop : (t ++ '\n' :: rest).dropWhile (· ≠ '\n') = '\n' :: rest := by
    rw [List.dropWhile_append_of_pos (by simpa using hline)]
    simp
  rw [afterComment, htake, hdrop, if_neg hplain]

/-- A comment without controls and the empty line below it are skipped. -/
theorem skipAllBlanks_writtenComment (h : ∀ c ∈ t, isControl c = false)
    (hc : isSpaceOrBreak c = false) (hcomment : c ≠ '#') :
    skipAllBlanks (writtenComment t ++ ['\n'] ++ c :: rest) = .ok (c :: rest) := by
  have hspaced : ∀ c ∈ ' ' :: t, isControl c = false := by
    intro c hc
    rcases List.mem_cons.mp hc with rfl | hc
    · decide
    · exact h c hc
  have hcut : writtenComment t ++ ['\n'] ++ c :: rest =
      '#' :: (' ' :: t ++ '\n' :: '\n' :: c :: rest) := by
    simp [writtenComment]
  have hafter := afterComment_line hspaced ('\n' :: c :: rest)
  have hblank : ('\n' :: '\n' :: c :: rest).dropWhile isSpaceOrBreak = c :: rest := by
    rw [List.dropWhile_cons_of_pos (by decide), List.dropWhile_cons_of_pos (by decide),
      List.dropWhile_cons_of_neg (by simp [hc])]
  rw [hcut, skipAllBlanks, List.length_cons, skipBlanks_comment _ hafter, skipBlanks, hblank]
  split
  · rename_i hopen
    exact absurd (List.cons.inj hopen).1 hcomment
  · rfl

/-! ## Tables -/

/-- The entries of a table of texts. -/
def textEntries (entries : List (Text × Text)) : Entries :=
  entries.map fun entry => (entry.1, .text entry.2)

/-- A document that has taken in the header of a table and some of its entries. -/
def Draft.under (name : Text) (inner : Entries) : Draft :=
  ⟨[(name, .table .header inner)], [name], [name]⟩

namespace Draft

theorem take_header (name : Text) : empty.take (.header [] name) = .ok (under name []) :=
  rfl

theorem take_pair {inner : Entries} {v : Value} (h : inner.lookup k = none) :
    (under name inner).take (.pair [] k v) = .ok (under name (inner ++ [(k, v)])) := by
  have hadd : Entries.put [] k v inner = .ok (inner ++ [(k, v)]) := by
    simp [Entries.put, Entries.within, Entries.add, h]
  simp [take, under, Entries.within, hadd, Except.map, Entries.replace]

/-- What blanks and comments there are in front does not matter. -/
theorem takeAll_congr {s t : Text} (fuel : Nat) (d : Draft)
    (h : skipAllBlanks s = skipAllBlanks t) :
    takeAll fuel d s = takeAll fuel d t := by
  cases fuel with
  | zero => rfl
  | succ fuel => rw [takeAll, takeAll, h]

theorem takeAll_statement {d d' : Draft} {s : Statement} (fuel : Nat)
    (hc : isSpaceOrBreak c = false) (hcomment : c ≠ '#')
    (hread : statement (c :: t) = .ok (s, rest)) (htake : d.take s = .ok d') :
    takeAll (fuel + 1) d (c :: t) = takeAll fuel d' rest := by
  rw [takeAll, skipAllBlanks_of_solid hc hcomment]
  dsimp only
  rw [hread]
  dsimp only
  rw [htake]

/-- The lines of a table add its entries, one after the other. -/
theorem takeAll_pairs (entries : List (Text × Text)) (inner : Entries) (fuel : Nat)
    (hbare : ∀ entry ∈ entries, IsBareKey entry.1)
    (hnew : ∀ entry ∈ entries, inner.lookup entry.1 = none)
    (hdistinct : (entries.map Prod.fst).Nodup) (hfuel : entries.length < fuel) :
    takeAll fuel (under name inner)
        (entries.flatMap fun entry => writtenPair entry.1 entry.2) =
      .ok (under name (inner ++ textEntries entries)) := by
  induction entries generalizing inner fuel with
  | nil =>
      obtain ⟨fuel, rfl⟩ := Nat.exists_eq_succ_of_ne_zero (Nat.ne_of_gt hfuel)
      simp [takeAll, skipAllBlanks, skipBlanks, textEntries]
  | cons entry entries ih =>
      obtain ⟨fuel, rfl⟩ := Nat.exists_eq_succ_of_ne_zero (Nat.ne_of_gt (Nat.zero_lt_of_lt hfuel))
      obtain ⟨k, v⟩ := entry
      have hkey : IsBareKey k := hbare (k, v) (by simp)
      have hread := statement_writtenPair hkey v
        (entries.flatMap fun entry => writtenPair entry.1 entry.2)
      have htake : (under name inner).take (.pair [] k (.text v)) =
          .ok (under name (inner ++ [(k, .text v)])) := take_pair (hnew (k, v) (by simp))
      obtain ⟨hfresh, hdistinct⟩ := List.nodup_cons.mp hdistinct
      have hnew' : ∀ entry ∈ entries,
          (inner ++ [(k, Value.text v)]).lookup entry.1 = none := by
        intro entry hentry
        have hne : entry.1 ≠ k := by
          intro heq
          exact hfresh (List.mem_map.mpr ⟨entry, hentry, heq⟩)
        rw [List.lookup_append, hnew entry (by simp [hentry])]
        simp [hne]
      have hrest := ih (inner ++ [(k, .text v)]) fuel (fun entry h => hbare entry (by simp [h]))
        hnew' hdistinct (Nat.lt_of_succ_lt_succ hfuel)
      obtain ⟨c, u, rfl⟩ := List.exists_cons_of_ne_nil hkey.nonempty
      have hc := hkey.bare c (by simp)
      have hcut : writtenPair (c :: u) v =
          c :: (u ++ [' ', '=', ' '] ++ writtenText v ++ ['\n']) := by
        simp [writtenPair]
      rw [List.flatMap_cons]
      simp only [hcut, List.cons_append] at hread ⊢
      rw [takeAll_statement fuel (not_spaceOrBreak_of_bare hc) (ne_of_bare hc rfl) hread htake,
        hrest]
      simp [textEntries]

end Draft

theorem length_le_written (entries : List (Text × Text)) :
    entries.length ≤ (entries.flatMap fun entry => writtenPair entry.1 entry.2).length := by
  induction entries with
  | nil => simp
  | cons entry entries ih =>
      have hline : 0 < (writtenPair entry.1 entry.2).length := by
        simp only [writtenPair, List.length_append]
        exact Nat.succ_pos _
      rw [List.flatMap_cons, List.length_append, List.length_cons]
      omega

/--
A written table is read back as the table, whatever is written in front of it that reading
skips.
-/
theorem read_writtenTable {front : Text} {entries : List (Text × Text)} (hname : IsBareKey name)
    (hbare : ∀ entry ∈ entries, IsBareKey entry.1) (hdistinct : (entries.map Prod.fst).Nodup)
    (hfront : skipAllBlanks (front ++ writtenTable name entries) =
      .ok (writtenTable name entries)) :
    read (front ++ writtenTable name entries) =
      .ok [(name, .table .header (textEntries entries))] := by
  have hskip : skipAllBlanks (front ++ writtenTable name entries) =
      skipAllBlanks (writtenTable name entries) :=
    hfront.trans (skipAllBlanks_of_solid rfl (by decide)).symm
  have hcut : writtenTable name entries = '[' :: (name ++ ']' :: '\n' ::
      entries.flatMap fun entry => writtenPair entry.1 entry.2) := by
    simp [writtenTable]
  have hlength := length_le_written entries
  have hfuel : entries.length < (front ++ writtenTable name entries).length := by
    simp only [hcut, List.length_append, List.length_cons]
    omega
  have hpairs := @Draft.takeAll_pairs name entries [] _ hbare (fun _ _ => rfl) hdistinct hfuel
  have hheader := statement_header hname
    (entries.flatMap fun entry => writtenPair entry.1 entry.2)
  rw [List.cons_append] at hheader
  rw [read, Draft.takeAll_congr _ _ hskip]
  generalize (front ++ writtenTable name entries).length = fuel at hpairs ⊢
  rw [hcut, Draft.takeAll_statement fuel rfl (by decide) hheader (Draft.take_header name), hpairs]
  rfl

end PageManifest.Toml
