import PageManifest.Proofs.Payload

/-! # Which texts are payload texts

Strict reading takes digits and then padding.  The padding has to complete the
last group of four, and a group with a single digit cannot be completed; behind
complete groups any padding is let through.  So whatever is read has octets in it
unless the text is empty.
-/

namespace PageManifest.Base64

/-- Whether so much padding may follow so many digits. -/
def Completes (digits pads : Nat) : Prop :=
  digits % 4 = 0 ∨ (digits % 4 = 2 ∧ pads = 2) ∨ (digits % 4 = 3 ∧ pads = 1)

/-- Payload texts: digits and the padding that completes them, which never stands alone. -/
def IsPayloadText (t : Text) : Prop :=
  ∃ digits pads, t = digits ++ List.replicate pads '=' ∧ (∀ c ∈ digits, isDigit c = true) ∧
    Completes digits.length pads ∧ (digits = [] → pads = 0)

theorem isDigit_padding : isDigit '=' = false := rfl

/-! ## Padding -/

/-- What follows padding that has not completed a group has to be padding. -/
theorem checkPadding_cons_eq_ok {digits pads : Nat} {c : Char} {rest : Text}
    (h : checkPadding digits pads (c :: rest) = .ok ()) : c = '=' := by
  by_cases hc : c = '='
  · exact hc
  · rw [checkPadding, if_neg hc] at h
    split at h
    · cases h
    · cases h

theorem checkPadding_of_open {digits pads : Nat} {rest : Text}
    (h : ¬ (2 ≤ digits % 4 ∧ 4 ≤ digits % 4 + (pads + 1))) :
    checkPadding digits pads ('=' :: rest) = checkPadding digits (pads + 1) rest := by
  rw [checkPadding, if_pos rfl, if_neg h]

theorem checkPadding_last_iff {digits pads : Nat} {rest : Text}
    (h : 2 ≤ digits % 4 ∧ 4 ≤ digits % 4 + (pads + 1)) :
    checkPadding digits pads ('=' :: rest) = .ok () ↔ rest = [] := by
  rw [checkPadding, if_pos rfl, if_pos h]
  cases rest <;> simp

/-- Behind complete groups padding is passed over, and behind a lone digit it does not help. -/
theorem checkPadding_of_lt {digits : Nat} (h : digits % 4 < 2) (pads : Nat) (t : Text) :
    checkPadding digits pads t = .ok () ↔
      digits % 4 = 0 ∧ t = List.replicate t.length '=' := by
  have hopen : ∀ pads, ¬ (2 ≤ digits % 4 ∧ 4 ≤ digits % 4 + (pads + 1)) := by omega
  induction t generalizing pads with
  | nil =>
      rcases Nat.lt_or_ge (digits % 4) 1 with hzero | hone
      · have hgroups : digits % 4 = 0 := by omega
        simp [checkPadding, hgroups]
      · have hlone : digits % 4 = 1 := by omega
        simp [checkPadding, hlone]
  | cons c t ih =>
      by_cases hc : c = '='
      · subst hc
        rw [checkPadding_of_open (hopen pads), List.length_cons, List.replicate_succ,
          List.cons.injEq, eq_self, true_and]
        exact ih (pads + 1)
      · constructor
        · intro hok
          exact absurd (checkPadding_cons_eq_ok hok) hc
        · rintro ⟨-, ht⟩
          rw [List.length_cons, List.replicate_succ, List.cons.injEq] at ht
          exact absurd ht.1 hc

theorem checkPadding_of_two {digits : Nat} (h : digits % 4 = 2) (t : Text) :
    checkPadding digits 0 t = .ok () ↔ t = ['=', '='] := by
  have hopen : ¬ (2 ≤ digits % 4 ∧ 4 ≤ digits % 4 + (0 + 1)) := by omega
  have hlast : 2 ≤ digits % 4 ∧ 4 ≤ digits % 4 + (0 + 1 + 1) := by omega
  constructor
  · intro hok
    rcases t with _ | ⟨c, _ | ⟨d, rest⟩⟩
    · simp [checkPadding, h] at hok
    · obtain rfl := checkPadding_cons_eq_ok hok
      rw [checkPadding_of_open hopen] at hok
      simp [checkPadding, h] at hok
    · obtain rfl := checkPadding_cons_eq_ok hok
      rw [checkPadding_of_open hopen] at hok
      obtain rfl := checkPadding_cons_eq_ok hok
      rw [(checkPadding_last_iff hlast).mp hok]
  · rintro rfl
    rw [checkPadding_of_open hopen]
    exact (checkPadding_last_iff hlast).mpr rfl

theorem checkPadding_of_three {digits : Nat} (h : digits % 4 = 3) (t : Text) :
    checkPadding digits 0 t = .ok () ↔ t = ['='] := by
  have hlast : 2 ≤ digits % 4 ∧ 4 ≤ digits % 4 + (0 + 1) := by omega
  constructor
  · intro hok
    cases t with
    | nil => simp [checkPadding, h] at hok
    | cons c rest =>
        obtain rfl := checkPadding_cons_eq_ok hok
        rw [(checkPadding_last_iff hlast).mp hok]
  · rintro rfl
    exact (checkPadding_last_iff hlast).mpr rfl

theorem checkPadding_eq_ok_iff (digits : Nat) (t : Text) : checkPadding digits 0 t = .ok () ↔
    ∃ pads, t = List.replicate pads '=' ∧ Completes digits pads := by
  have hrange : digits % 4 < 2 ∨ digits % 4 = 2 ∨ digits % 4 = 3 := by omega
  rcases hrange with hlow | htwo | hthree
  · rw [checkPadding_of_lt hlow]
    constructor
    · rintro ⟨hzero, ht⟩
      exact ⟨t.length, ht, .inl hzero⟩
    · rintro ⟨pads, rfl, hcompletes⟩
      have hzero : digits % 4 = 0 := by
        unfold Completes at hcompletes
        omega
      exact ⟨hzero, by rw [List.length_replicate]⟩
  · rw [checkPadding_of_two htwo]
    constructor
    · rintro rfl
      exact ⟨2, rfl, .inr (.inl ⟨htwo, rfl⟩)⟩
    · rintro ⟨pads, rfl, hcompletes⟩
      obtain rfl : pads = 2 := by
        unfold Completes at hcompletes
        omega
      rfl
  · rw [checkPadding_of_three hthree]
    constructor
    · rintro rfl
      exact ⟨1, rfl, .inr (.inr ⟨hthree, rfl⟩)⟩
    · rintro ⟨pads, rfl, hcompletes⟩
      obtain rfl : pads = 1 := by
        unfold Completes at hcompletes
        omega
      rfl

/-! ## Reading -/

theorem takeWhile_isDigit_append {digits : Text} (h : ∀ c ∈ digits, isDigit c = true) (pads : Nat) :
    (digits ++ List.replicate pads '=').takeWhile isDigit = digits ∧
      (digits ++ List.replicate pads '=').dropWhile isDigit = List.replicate pads '=' := by
  rw [List.takeWhile_append_of_pos h, List.dropWhile_append_of_pos h]
  cases pads with
  | zero => simp
  | succ pads => simp [List.replicate_succ, isDigit_padding]

/-- What strict reading yields is read off the digits in front of the padding. -/
theorem decode_eq_ok_iff {t : Text} {payload : Bytes} : decode t = .ok payload ↔
    ∃ digits pads, t = digits ++ List.replicate pads '=' ∧ (∀ c ∈ digits, isDigit c = true) ∧
      Completes digits.length pads ∧ (digits = [] → pads = 0) ∧
        payload = octets (digits.filterMap value?) := by
  constructor
  · intro h
    unfold decode at h
    split at h
    · cases h
    · split at h
      · cases h
      · rename_i hlead
        dsimp only at h
        split at h
        · cases h
        · rename_i hcheck
          obtain ⟨pads, hpads, hcompletes⟩ := (checkPadding_eq_ok_iff _ _).mp hcheck
          have hcut := List.takeWhile_append_dropWhile (p := isDigit) (l := t)
          rw [hpads] at hcut
          refine ⟨t.takeWhile isDigit, pads, hcut.symm, List.all_eq_true.mp List.all_takeWhile,
            hcompletes, ?_, (Except.ok.inj h).symm⟩
          intro hnone
          rw [hnone, List.nil_append] at hcut
          cases pads with
          | zero => rfl
          | succ pads => exact absurd (by rw [← hcut]; rfl) hlead
  · rintro ⟨digits, pads, rfl, hdigits, hcompletes, hlone, rfl⟩
    obtain ⟨htake, hdrop⟩ := takeWhile_isDigit_append hdigits pads
    have hcheck := (checkPadding_eq_ok_iff digits.length (List.replicate pads '=')).mpr
      ⟨pads, rfl, hcompletes⟩
    have hascii : (digits ++ List.replicate pads '=').any (fun c => decide (0x80 ≤ c.toNat)) =
        false := by
      rw [List.any_eq_false]
      intro c hc
      have hlt : c.toNat < 0x80 := by
        rcases List.mem_append.mp hc with hdigit | hpad
        · exact toNat_lt_of_isDigit (hdigits c hdigit)
        · rw [List.eq_of_mem_replicate hpad]
          decide
      simp only [decide_eq_true_eq]
      omega
    have hlead : (digits ++ List.replicate pads '=').head? ≠ some '=' := by
      cases digits with
      | nil => simp [hlone rfl]
      | cons d digits =>
          intro hhead
          rw [List.cons_append, List.head?_cons, Option.some.injEq] at hhead
          have hdigit := hdigits d (by simp)
          rw [hhead, isDigit_padding] at hdigit
          cases hdigit
    rw [decode, hascii, if_neg (by simp), if_neg hlead, htake, hdrop]
    simp only [hcheck]

theorem exists_decode_iff {t : Text} : (∃ payload, decode t = .ok payload) ↔ IsPayloadText t := by
  constructor
  · rintro ⟨payload, h⟩
    obtain ⟨digits, pads, ht, hdigits, hcompletes, hlone, -⟩ := decode_eq_ok_iff.mp h
    exact ⟨digits, pads, ht, hdigits, hcompletes, hlone⟩
  · rintro ⟨digits, pads, ht, hdigits, hcompletes, hlone⟩
    exact ⟨_, decode_eq_ok_iff.mpr ⟨digits, pads, ht, hdigits, hcompletes, hlone, rfl⟩⟩

instance (t : Text) : Decidable (IsPayloadText t) :=
  decidable_of_iff ((decode t).isOk = true) <| by
    rw [← exists_decode_iff]
    cases decode t <;> simp [Except.isOk, Except.toBool]

theorem length_filterMap_value? {digits : Text} (h : ∀ c ∈ digits, isDigit c = true) :
    (digits.filterMap value?).length = digits.length := by
  induction digits with
  | nil => rfl
  | cons d digits ih =>
      obtain ⟨v, hv⟩ := Option.isSome_iff_exists.mp (h d (by simp))
      rw [List.filterMap_cons_some hv, List.length_cons, ih fun c hc => h c (by simp [hc]),
        List.length_cons]

theorem octets_ne_nil {values : List Nat} (h : 2 ≤ values.length) : octets values ≠ [] := by
  rcases values with _ | ⟨a, _ | ⟨b, _ | ⟨c, _ | ⟨d, rest⟩⟩⟩⟩
  · simp at h
  · simp at h
  · simp [octets]
  · simp [octets]
  · simp [octets]

/-- A text that is read has octets in it, unless it is empty. -/
theorem decode_ne_nil {t : Text} (h : t ≠ []) : decode t ≠ .ok [] := by
  intro hempty
  obtain ⟨digits, pads, rfl, hdigits, hcompletes, hlone, hoctets⟩ := decode_eq_ok_iff.mp hempty
  have hne : digits ≠ [] := by
    rintro rfl
    exact h (by rw [hlone rfl]; rfl)
  have hpos := List.length_pos_iff.mpr hne
  have htwo : 2 ≤ digits.length := by
    unfold Completes at hcompletes
    omega
  exact octets_ne_nil (by rw [length_filterMap_value? hdigits]; exact htwo) hoctets.symm

end PageManifest.Base64
