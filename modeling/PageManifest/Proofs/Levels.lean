import PageManifest.Log.Record
import PageManifest.Proofs.Words

/-! # What a log setting denotes

A log setting denotes a level by one of its names, or by a number in decimal digits.
A setting that denotes a level is read as that level, unless the number is too long to
be read.  The threshold that follows from a setting is the level it denotes, except
where the level is zero or the setting cannot be read.
-/

namespace PageManifest

namespace Text

/-! ## Digits below the first run -/

set_option maxRecDepth 20000 in
theorem decimalRuns_above : ∀ p ∈ decimalRuns.bounds.toList, 0x660 ≤ p.1 := by
  unfold decimalRuns
  rw [Ranges.toList_bounds_ofLines]
  simp only [List.flatMap_cons]
  -- Exposes the characters of each line, which evaluation would otherwise decode one by one.
  repeat rw [String.toList_ofList]
  decide +kernel

set_option maxRecDepth 20000 in
theorem digitsOutsideRuns_apart : ∀ p ∈ digitsOutsideRuns.bounds.toList,
    0xb2 ≤ p.1 ∧ p.2 ≤ 0xb9 ∨ 0x660 ≤ p.1 := by
  unfold digitsOutsideRuns
  rw [Ranges.toList_bounds_ofLines]
  simp only [List.flatMap_cons]
  repeat rw [String.toList_ofList]
  decide +kernel

set_option maxRecDepth 20000 in
theorem superscripts_mem : (0xb2, 0xb3) ∈ digitsOutsideRuns.bounds.toList := by
  unfold digitsOutsideRuns
  rw [Ranges.toList_bounds_ofLines]
  simp only [List.flatMap_cons]
  repeat rw [String.toList_ofList]
  decide +kernel

theorem decimalValue?_eq_none {c : Char} (hlo : ¬ c.toNat < 0x80) (hhi : c.toNat < 0x660) :
    decimalValue? c = none := by
  rw [decimalValue?, if_neg hlo, Option.map_eq_none_iff, ← Array.find?_toList,
    List.find?_eq_none]
  intro p hp
  have above := decimalRuns_above p hp
  simp only [Bool.and_eq_true, decide_eq_true_eq]
  omega

theorem isDigit_eq {c : Char} (hc : c.toNat < 0xb2 ∨ 0xb9 < c.toNat ∧ c.toNat < 0x660) :
    isDigit c = (decimalValue? c).isSome := by
  have outside : digitsOutsideRuns.contains c = false :=
    Ranges.contains_eq_false fun p hp => by
      have apart := digitsOutsideRuns_apart p hp
      omega
  rw [isDigit, outside, Bool.or_false]

theorem isDigit_superscript : isDigit '²' = true := by
  have outside : digitsOutsideRuns.contains '²' = true := by
    rw [Ranges.contains, ← Array.any_toList, List.any_eq_true]
    exact ⟨_, superscripts_mem, by decide⟩
  rw [isDigit, outside, Bool.or_true]

end Text

namespace Log

variable {v : Text} {n k : Int}

/-! ## Names and numbers -/

/-- How levels are called. -/
inductive Called : Level → String → Prop
  | name (level : Level) : Called level level.name
  | warn : Called .warning "WARN"
  | fatal : Called .critical "FATAL"

/-- The number that digits stand for by their places. -/
def placeValue : List Nat → Nat
  | [] => 0
  | d :: ds => d * Nat.pow 10 ds.length + placeValue ds

/-- What a text denotes as a level.  Blanks at its ends and letter case do not count. -/
inductive Denotes (v : Text) : Int → Prop
  | called {level : Level} {name : String} (calls : Called level name)
      (spelled : (Text.trim v).map capital = name.toList) : Denotes v level.severity
  | number {digits : List Nat} (read : (Text.trim v).map Text.decimalValue? = digits.map some)
      (written : digits ≠ []) : Denotes v (placeValue digits : Nat)

/-- A text that consists of decimal digits but for the blanks at its ends. -/
def AllDecimal (v : Text) : Prop :=
  ∀ c ∈ Text.trim v, (Text.decimalValue? c).isSome = true

/-- A text of digits, not all of which are decimal. -/
def StrayDigits (v : Text) : Prop :=
  (∀ c ∈ Text.trim v, Text.isDigit c = true) ∧ ¬ AllDecimal v

/-- A number of more digits than are read. -/
def LongNumber (v : Text) : Prop :=
  AllDecimal v ∧ digitLimit < (Text.trim v).length

theorem called_iff {level : Level} {name : String} :
    Called level name ↔ Level.ofName? name = some level := by
  constructor
  · intro h
    cases h with
    | name => exact Level.ofName?_name level
    | warn => rfl
    | fatal => rfl
  · intro h
    unfold Level.ofName? at h
    split at h
    · rename_i hwarn
      obtain rfl := Option.some.inj h
      exact hwarn ▸ .warn
    · split at h
      · rename_i hfatal
        obtain rfl := Option.some.inj h
        exact hfatal ▸ .fatal
      · have hname : level.name = name := by simpa using List.find?_some h
        exact hname ▸ .name level

theorem foldl_eq_placeValue (ds : List Nat) (start : Nat) :
    ds.foldl (fun n d => n * 10 + d) start = start * Nat.pow 10 ds.length + placeValue ds := by
  induction ds generalizing start with
  | nil => simp [placeValue]
  | cons d ds ih =>
      have hpow : Nat.pow 10 (ds.length + 1) = Nat.pow 10 ds.length * 10 := rfl
      rw [List.foldl_cons, ih, placeValue, List.length_cons, hpow, Nat.add_mul,
        Nat.mul_assoc, Nat.mul_comm 10, Nat.add_assoc]

/-! ## Letter case and digits -/

theorem capital_of_wide {c : Char} (hc : ¬ c.toNat < 0x80) (hi : c ≠ 'ı') (hs : c ≠ 'ſ') :
    capital c = c := by
  have hupper : c.toUpper = c := by
    unfold Char.toUpper
    rw [dif_neg]
    rintro ⟨-, hle⟩
    have hnat : c.toNat ≤ 'z'.toNat := hle
    exact hc (Nat.lt_of_le_of_lt hnat (by decide))
  rw [capital, if_neg hi, if_neg hs, hupper]

/-- What tells no small letter from its capital tells no character from its capital. -/
theorem apply_capital {α : Type} {f : Char → α}
    (hascii : ∀ n ∈ List.range 0x80, f (capital (Char.ofNat n)) = f (Char.ofNat n))
    (hi : f 'I' = f 'ı') (hs : f 'S' = f 'ſ') (c : Char) : f (capital c) = f c := by
  by_cases hc : c.toNat < 0x80
  · exact Text.of_ascii (P := fun d => f (capital d) = f d) hascii hc
  · by_cases hci : c = 'ı'
    · subst hci
      exact hi
    · by_cases hcs : c = 'ſ'
      · subst hcs
        exact hs
      · rw [capital_of_wide hc hci hcs]

theorem decimalValue?_capital (c : Char) :
    Text.decimalValue? (capital c) = Text.decimalValue? c :=
  apply_capital (by decide +kernel) (Text.decimalValue?_eq_none (by decide) (by decide)).symm
    (Text.decimalValue?_eq_none (by decide) (by decide)).symm c

theorem isDigit_capital (c : Char) : Text.isDigit (capital c) = Text.isDigit c := by
  have low : ∀ n ∈ List.range 0x80,
      (Char.ofNat n).toNat < 0xb2 ∧ (capital (Char.ofNat n)).toNat < 0xb2 := by decide +kernel
  refine apply_capital (fun n hn => ?_) ?_ ?_ c
  · rw [Text.isDigit_eq (.inl (low n hn).1), Text.isDigit_eq (.inl (low n hn).2),
      decimalValue?_capital]
  · rw [Text.isDigit_eq (.inl (by decide)), Text.isDigit_eq (.inr (by decide)),
      ← decimalValue?_capital 'ı']
    rfl
  · rw [Text.isDigit_eq (.inl (by decide)), Text.isDigit_eq (.inr (by decide)),
      ← decimalValue?_capital 'ſ']
    rfl

theorem isDigit_of_decimalValue? {c : Char} (h : (Text.decimalValue? c).isSome = true) :
    Text.isDigit c = true := by
  rw [Text.isDigit, h, Bool.true_or]

theorem all_isDigit_capital (t : Text) :
    (t.map capital).all Text.isDigit = t.all Text.isDigit := by
  rw [List.all_map]
  exact congrArg t.all (funext isDigit_capital)

theorem map_decimalValue?_capital (t : Text) :
    (t.map capital).map Text.decimalValue? = t.map Text.decimalValue? := by
  rw [List.map_map]
  exact List.map_congr_left fun c _ => decimalValue?_capital c

/-- No level is called by digits alone. -/
theorem Called.not_all_isDigit {level : Level} {name : String} (h : Called level name) :
    name.toList.all Text.isDigit = false := by
  have letter : ∃ c rest, name.toList = c :: rest ∧ c.toNat < 0x80 ∧ c.isDigit = false := by
    cases h with
    | name => cases level <;> exact ⟨_, _, rfl, by decide, rfl⟩
    | warn => exact ⟨_, _, rfl, by decide, rfl⟩
    | fatal => exact ⟨_, _, rfl, by decide, rfl⟩
  obtain ⟨c, rest, hname, hascii, hletter⟩ := letter
  have hno : Text.isDigit c = false := by
    rw [Text.isDigit_eq (.inl (by omega)), Text.decimalValue?, if_pos hascii, hletter]
    rfl
  rw [hname, List.all_cons, hno, Bool.false_and]

/-! ## Reading -/

theorem mapM_eq_some_iff {α β : Type} {f : α → Option β} {l : List α} {r : List β} :
    l.mapM f = some r ↔ l.map f = r.map some := by
  induction l generalizing r with
  | nil => cases r <;> simp
  | cons a l ih =>
      rw [List.mapM_cons]
      cases ha : f a with
      | none => cases r <;> simp [ha]
      | some b =>
          cases r with
          | nil => cases l.mapM f <;> simp
          | cons c r =>
              rw [List.map_cons, List.map_cons, List.cons.injEq, ← ih, ha]
              cases l.mapM f <;> simp

theorem isSome_mapM_iff {α β : Type} {f : α → Option β} {l : List α} :
    (l.mapM f).isSome = true ↔ ∀ a ∈ l, (f a).isSome = true := by
  induction l with
  | nil => simp
  | cons a l ih =>
      rw [List.mapM_cons, List.forall_mem_cons, ← ih]
      cases f a with
      | none => simp
      | some b => cases l.mapM f <;> simp

theorem readNumber_eq_ok_iff {t : Text} : readNumber t = .ok n ↔
    ∃ digits, t.map Text.decimalValue? = digits.map some ∧ digits.length ≤ digitLimit ∧
      n = (placeValue digits : Nat) := by
  unfold readNumber
  cases ht : t.mapM Text.decimalValue? with
  | none =>
      refine iff_of_false (fun h => by cases h) ?_
      rintro ⟨digits, hdigits, -⟩
      rw [mapM_eq_some_iff.mpr hdigits] at ht
      cases ht
  | some digits =>
      have hdigits := mapM_eq_some_iff.mp ht
      have hunique : ∀ ds, t.map Text.decimalValue? = ds.map some → ds = digits := by
        intro ds hds
        exact Option.some.inj ((mapM_eq_some_iff.mpr hds).symm.trans ht)
      dsimp only
      by_cases hlong : digitLimit < digits.length
      · rw [if_pos hlong]
        refine iff_of_false (fun h => by cases h) ?_
        rintro ⟨ds, hds, hshort, -⟩
        rw [hunique ds hds] at hshort
        omega
      · rw [if_neg hlong, foldl_eq_placeValue, Nat.zero_mul, Nat.zero_add]
        constructor
        · intro h
          exact ⟨digits, hdigits, by omega, (Except.ok.inj h).symm⟩
        · rintro ⟨ds, hds, -, rfl⟩
          rw [hunique ds hds]

/-- A text that is read as a number, if at all. -/
def IsDigits (v : Text) : Prop :=
  Text.trim v ≠ [] ∧ ∀ c ∈ Text.trim v, Text.isDigit c = true

theorem readLevel_of_isDigits (h : IsDigits v) :
    readLevel v = (readNumber ((Text.trim v).map capital)).map some := by
  have hcond : (!((Text.trim v).map capital).isEmpty &&
      ((Text.trim v).map capital).all Text.isDigit) = true := by
    rw [all_isDigit_capital, List.all_eq_true.mpr h.2]
    simpa using h.1
  unfold readLevel
  exact if_pos hcond

theorem readLevel_of_not_isDigits (h : ¬ IsDigits v) : readLevel v =
    .ok ((Level.ofName? (String.ofList ((Text.trim v).map capital))).map Level.severity) := by
  have hcond : ¬ (!((Text.trim v).map capital).isEmpty &&
      ((Text.trim v).map capital).all Text.isDigit) = true := by
    rw [all_isDigit_capital]
    intro hboth
    rw [Bool.and_eq_true, List.all_eq_true] at hboth
    exact h ⟨by simpa using hboth.1, hboth.2⟩
  unfold readLevel
  exact if_neg hcond

theorem denotes_iff_of_isDigits (h : IsDigits v) : Denotes v n ↔
    ∃ digits, (Text.trim v).map Text.decimalValue? = digits.map some ∧
      n = (placeValue digits : Nat) := by
  constructor
  · intro hdenotes
    cases hdenotes with
    | called calls spelled =>
        have hno := calls.not_all_isDigit
        rw [← spelled, all_isDigit_capital, List.all_eq_true.mpr h.2] at hno
        cases hno
    | number read written => exact ⟨_, read, rfl⟩
  · rintro ⟨digits, hread, rfl⟩
    refine .number hread ?_
    rintro rfl
    exact h.1 (List.map_eq_nil_iff.mp hread)

theorem isDigits_of_map_eq {digits : List Nat}
    (hread : (Text.trim v).map Text.decimalValue? = digits.map some) (hne : digits ≠ []) :
    IsDigits v := by
  constructor
  · intro hnil
    rw [hnil, List.map_nil] at hread
    exact hne (List.map_eq_nil_iff.mp hread.symm)
  · intro c hc
    have hmem : Text.decimalValue? c ∈ digits.map some := hread ▸ List.mem_map_of_mem hc
    obtain ⟨d, -, hd⟩ := List.mem_map.mp hmem
    exact isDigit_of_decimalValue? (by rw [← hd]; rfl)

theorem denotes_iff_of_not_isDigits (h : ¬ IsDigits v) : Denotes v n ↔
    (Level.ofName? (String.ofList ((Text.trim v).map capital))).map Level.severity = some n := by
  rw [Option.map_eq_some_iff]
  constructor
  · intro hdenotes
    cases hdenotes with
    | called calls spelled =>
        refine ⟨_, ?_, rfl⟩
        rw [spelled, String.ofList_toList]
        exact called_iff.mp calls
    | number read written => exact absurd (isDigits_of_map_eq read written) h
  · rintro ⟨level, hlevel, rfl⟩
    exact .called (called_iff.mpr hlevel) (String.toList_ofList).symm

theorem length_of_map_eq {digits : List Nat}
    (hread : (Text.trim v).map Text.decimalValue? = digits.map some) :
    digits.length = (Text.trim v).length := by
  have hlength := congrArg List.length hread
  rw [List.length_map, List.length_map] at hlength
  exact hlength.symm

theorem exists_map_eq_iff : (∃ digits : List Nat,
    (Text.trim v).map Text.decimalValue? = digits.map some) ↔ AllDecimal v := by
  simp only [← mapM_eq_some_iff, ← Option.isSome_iff_exists]
  exact isSome_mapM_iff

theorem LongNumber.isDigits (h : LongNumber v) : IsDigits v := by
  refine ⟨?_, fun c hc => isDigit_of_decimalValue? (h.1 c hc)⟩
  intro hnil
  have hlong := h.2
  rw [hnil] at hlong
  exact absurd hlong (Nat.not_lt_zero _)

theorem StrayDigits.isDigits (h : StrayDigits v) : IsDigits v := by
  refine ⟨fun hnil => h.2 fun c hc => ?_, h.1⟩
  rw [hnil] at hc
  cases hc

/-- A text is read as the level that it denotes, unless its number is too long. -/
theorem readLevel_eq_some_iff :
    readLevel v = .ok (some n) ↔ Denotes v n ∧ ¬ LongNumber v := by
  by_cases h : IsDigits v
  · have hnumber : readLevel v = .ok (some n) ↔
        readNumber ((Text.trim v).map capital) = .ok n := by
      rw [readLevel_of_isDigits h]
      cases readNumber ((Text.trim v).map capital) <;> simp [Except.map]
    rw [hnumber, readNumber_eq_ok_iff, denotes_iff_of_isDigits h, map_decimalValue?_capital]
    constructor
    · rintro ⟨digits, hread, hshort, rfl⟩
      refine ⟨⟨digits, hread, rfl⟩, fun hlong => ?_⟩
      have hlimit := hlong.2
      rw [← length_of_map_eq hread] at hlimit
      omega
    · rintro ⟨⟨digits, hread, rfl⟩, hshort⟩
      refine ⟨digits, hread, Nat.le_of_not_lt fun hlimit => hshort ?_, rfl⟩
      exact ⟨exists_map_eq_iff.mp ⟨digits, hread⟩, by rw [← length_of_map_eq hread]; exact hlimit⟩
  · rw [readLevel_of_not_isDigits h, denotes_iff_of_not_isDigits h, Except.ok.injEq]
    exact (and_iff_left fun hlong => h hlong.isDigits).symm

/-- Digits that are not all decimal cannot be read, nor can numbers that are too long. -/
theorem exists_readLevel_error_iff :
    (∃ fault, readLevel v = .error fault) ↔ StrayDigits v ∨ LongNumber v := by
  by_cases h : IsDigits v
  · have hnumber : (∃ fault, readLevel v = .error fault) ↔
        ¬ ∃ n, readNumber ((Text.trim v).map capital) = .ok n := by
      rw [readLevel_of_isDigits h]
      cases readNumber ((Text.trim v).map capital) <;> simp [Except.map]
    rw [hnumber]
    simp only [readNumber_eq_ok_iff, map_decimalValue?_capital]
    constructor
    · intro hnone
      by_cases hdecimal : AllDecimal v
      · obtain ⟨digits, hread⟩ := exists_map_eq_iff.mpr hdecimal
        refine .inr ⟨hdecimal, Nat.lt_of_not_le fun hshort => hnone ?_⟩
        exact ⟨_, digits, hread, by rw [length_of_map_eq hread]; exact hshort, rfl⟩
      · exact .inl ⟨h.2, hdecimal⟩
    · rintro (hstray | hlong) ⟨n, digits, hread, hshort, -⟩
      · exact hstray.2 (exists_map_eq_iff.mp ⟨digits, hread⟩)
      · have hlimit := hlong.2
        rw [← length_of_map_eq hread] at hlimit
        omega
  · rw [readLevel_of_not_isDigits h]
    refine iff_of_false (fun ⟨_, hfault⟩ => by cases hfault) ?_
    rintro (hstray | hlong)
    · exact h hstray.isDigits
    · exact h hlong.isDigits

/-! ## What follows from a setting -/

/-- What a setting asks for, where there is one. -/
def Asks (setting : Option Text) (n : Int) : Prop :=
  ∃ t, setting = some t ∧ Denotes t n

/--
A threshold does a setting justice: it is the level that the setting asks for, and that
of critical records where nothing or nothing else is asked for; and it is the same
whether the setting is looked up or its level is handed over.
-/
structure Honoured (setting : Option Text) (threshold : Int) : Prop where
  taken : effectiveLevel none setting = .ok threshold
  asked : ∀ n, Asks setting n → threshold = n
  silent : (∀ n, ¬ Asks setting n) → threshold = Level.critical.severity
  critical : threshold = Level.critical.severity →
    ∀ n, Asks setting n → n = Level.critical.severity
  handedOver : (environmentLevel setting >>= fun level => effectiveLevel level setting) =
    .ok threshold

theorem environmentLevel_some (t : Text) : environmentLevel (some t) = readLevel t := by
  unfold environmentLevel
  cases t with
  | nil => rfl
  | cons c t => rfl

/-- The threshold that a reading leads to; zero counts like nothing. -/
def thresholdOf : Option Int → Int
  | some severity => if severity = 0 then Level.critical.severity else severity
  | none => Level.critical.severity

theorem effectiveLevel_none (setting : Option Text) :
    effectiveLevel none setting = (environmentLevel setting).map thresholdOf := by
  unfold effectiveLevel
  refine congrArg (fun f => (environmentLevel setting).map f) (funext fun asked => ?_)
  cases asked <;> rfl

theorem not_asks_of_readLevel {t : Text} (h : readLevel t = .ok none) :
    ¬ Asks (some t) n := by
  rintro ⟨_, ⟨rfl⟩, hdenotes⟩
  have hshort : ¬ LongNumber t := by
    intro hlong
    obtain ⟨fault, hfault⟩ := exists_readLevel_error_iff.mpr (.inr hlong)
    rw [h] at hfault
    cases hfault
  rw [readLevel_eq_some_iff.mpr ⟨hdenotes, hshort⟩] at h
  cases h

theorem asks_iff_of_readLevel {t : Text} (h : readLevel t = .ok (some n)) :
    Asks (some t) k ↔ k = n := by
  obtain ⟨hdenotes, hshort⟩ := readLevel_eq_some_iff.mp h
  constructor
  · rintro ⟨_, ⟨rfl⟩, hk⟩
    rw [readLevel_eq_some_iff.mpr ⟨hk, hshort⟩] at h
    exact Option.some.inj (Except.ok.inj h)
  · rintro rfl
    exact ⟨t, rfl, hdenotes⟩

theorem effectiveLevel_of_readLevel {t : Text} {asked : Option Int}
    (h : readLevel t = .ok asked) :
    effectiveLevel none (some t) = .ok (thresholdOf asked) := by
  rw [effectiveLevel_none, environmentLevel_some, h]
  rfl

theorem honoured_unset : Honoured none Level.critical.severity where
  taken := rfl
  asked := by
    rintro n ⟨t, ⟨⟩, -⟩
  silent _ := rfl
  critical := by
    rintro - n ⟨t, ⟨⟩, -⟩
  handedOver := rfl

/-- A setting that denotes no level counts like none. -/
theorem honoured_of_silent {t : Text} (h : readLevel t = .ok none) :
    Honoured (some t) Level.critical.severity where
  taken := effectiveLevel_of_readLevel h
  asked _ hn := absurd hn (not_asks_of_readLevel h)
  silent _ := rfl
  critical _ _ hn := absurd hn (not_asks_of_readLevel h)
  handedOver := by
    rw [environmentLevel_some, h]
    exact effectiveLevel_of_readLevel h

theorem handedOver_of_readLevel {t : Text} (h : readLevel t = .ok (some n)) :
    (environmentLevel (some t) >>= fun level => effectiveLevel level (some t)) = .ok n := by
  rw [environmentLevel_some, h]
  rfl

/-- A setting that denotes a level is honoured, and level zero is not. -/
theorem honoured_iff_of_readLevel {t : Text} (h : readLevel t = .ok (some n)) :
    (∃ threshold, Honoured (some t) threshold) ↔ n ≠ 0 := by
  constructor
  · rintro ⟨threshold, honoured⟩ rfl
    have hzero := honoured.handedOver
    rw [handedOver_of_readLevel h] at hzero
    obtain rfl := Except.ok.inj hzero
    cases (effectiveLevel_of_readLevel h).symm.trans honoured.taken
  · intro hn
    have hthreshold : thresholdOf (some n) = n := if_neg hn
    refine ⟨n, ?_, ?_, ?_, ?_, handedOver_of_readLevel h⟩
    · rw [effectiveLevel_of_readLevel h, hthreshold]
    · exact fun k hk => ((asks_iff_of_readLevel h).mp hk).symm
    · exact fun hnothing => absurd ((asks_iff_of_readLevel h).mpr rfl) (hnothing n)
    · intro hcritical k hk
      rw [(asks_iff_of_readLevel h).mp hk, hcritical]

theorem not_honoured_of_error {t : Text} {fault : LevelFault} (h : readLevel t = .error fault) :
    ¬ ∃ threshold, Honoured (some t) threshold := by
  rintro ⟨threshold, honoured⟩
  have htaken := honoured.taken
  rw [effectiveLevel_none, environmentLevel_some, h] at htaken
  cases htaken

/--
A log setting is honoured, except in three cases: it asks for level zero; it is made of
digits that are not all decimal; it is a number that is too long to be read.
-/
theorem environment_honoured_iff (setting : Option Text) :
    (∃ threshold, Honoured setting threshold) ↔
      ¬ Asks setting 0 ∧ ∀ t, setting = some t → ¬ StrayDigits t ∧ ¬ LongNumber t := by
  cases setting with
  | none =>
      refine iff_of_true ⟨_, honoured_unset⟩ ⟨?_, ?_⟩
      · rintro ⟨t, ⟨⟩, -⟩
      · rintro t ⟨⟩
  | some t =>
      have hreadable : (∀ t', some t = some t' → ¬ StrayDigits t' ∧ ¬ LongNumber t') ↔
          ¬ ∃ fault, readLevel t = .error fault := by
        rw [exists_readLevel_error_iff, not_or]
        simp
      rw [hreadable]
      cases hread : readLevel t with
      | error fault => exact iff_of_false (not_honoured_of_error hread) fun h => h.2 ⟨fault, rfl⟩
      | ok asked =>
          have hsound : ¬ ∃ fault, (.ok asked : Except LevelFault (Option Int)) = .error fault := by
            rintro ⟨fault, hfault⟩
            cases hfault
          cases asked with
          | none =>
              exact iff_of_true ⟨_, honoured_of_silent hread⟩
                ⟨not_asks_of_readLevel hread, hsound⟩
          | some n =>
              rw [honoured_iff_of_readLevel hread, asks_iff_of_readLevel hread, ne_comm]
              exact (and_iff_left hsound).symm

/-- Level zero is not taken at its word, and a superscript is not passed over. -/
theorem unhonoured_zero_and_superscript :
    (Asks (some "0".toList) 0 ∧ effectiveLevel none (some "0".toList) = .ok 50 ∧
      (environmentLevel (some "0".toList) >>= fun level =>
        effectiveLevel level (some "0".toList)) = .ok 0) ∧
    effectiveLevel none (some "²".toList) = .error (.noDecimal "²".toList) ∧
      ¬ (∃ threshold, Honoured (some "0".toList) threshold) ∧
        ¬ ∃ threshold, Honoured (some "²".toList) threshold := by
  have hdigit : (Text.trim "0".toList).map Text.decimalValue? = [0].map some := rfl
  have hasks : Asks (some "0".toList) 0 := ⟨_, rfl, .number hdigit (by decide)⟩
  have hzero : effectiveLevel none (some "0".toList) = .ok 50 := rfl
  have hdigits : IsDigits "²".toList := ⟨by decide, by
    intro c hc
    obtain rfl := List.mem_singleton.mp hc
    exact Text.isDigit_superscript⟩
  have hread : readLevel "²".toList = .error (.noDecimal "²".toList) := by
    rw [readLevel_of_isDigits hdigits]
    change (readNumber ['²']).map some = _
    rw [readNumber, List.mapM_cons, Text.decimalValue?_eq_none (by decide) (by decide)]
    rfl
  have hsuper : effectiveLevel none (some "²".toList) = .error (.noDecimal "²".toList) := by
    rw [effectiveLevel, environmentLevel_some, hread]
    rfl
  refine ⟨⟨hasks, hzero, rfl⟩, hsuper, ?_, not_honoured_of_error hread⟩
  rintro ⟨threshold, honoured⟩
  have htaken := honoured.taken
  rw [hzero, honoured.asked 0 hasks] at htaken
  cases htaken

end Log

end PageManifest
