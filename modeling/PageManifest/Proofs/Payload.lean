import PageManifest.Base64
import PageManifest.Proofs.Words

/-! # Payload text, read back

The written form of a payload is a run of digits and a padding that completes the
last group, so strict reading gives the payload back.  A text with any other
character in it is refused.
-/

namespace PageManifest.Base64

/-- The digit values that a payload is written with. -/
def values : Bytes → List Nat
  | [] => []
  | [a] =>
      let n := a.toNat * 16
      [n / 64, n % 64]
  | [a, b] =>
      let n := (a.toNat * 256 + b.toNat) * 4
      [n / 4096, n / 64 % 64, n % 64]
  | a :: b :: c :: rest =>
      let n := (a.toNat * 256 + b.toNat) * 256 + c.toNat
      n / 262144 :: n / 4096 % 64 :: n / 64 % 64 :: n % 64 :: values rest

/-- The padding behind the digits of a payload. -/
def padding : Bytes → Text
  | [] => []
  | [_] => ['=', '=']
  | [_, _] => ['=']
  | _ :: _ :: _ :: rest => padding rest

theorem encode_eq (payload : Bytes) :
    encode payload = (values payload).map digit ++ padding payload := by
  induction payload using encode.induct with
  | case1 => rfl
  | case2 a => rfl
  | case3 a b => rfl
  | case4 a b c rest ih => simp [encode, values, padding, ih]

theorem values_lt (payload : Bytes) : ∀ v ∈ values payload, v < 64 := by
  induction payload using encode.induct with
  | case1 => simp [values]
  | case2 a =>
      have ha := a.toNat_lt
      simp only [values, List.mem_cons, List.not_mem_nil, or_false]
      intro v hv
      omega
  | case3 a b =>
      have ha := a.toNat_lt
      have hb := b.toNat_lt
      simp only [values, List.mem_cons, List.not_mem_nil, or_false]
      intro v hv
      omega
  | case4 a b c rest ih =>
      have ha := a.toNat_lt
      have hb := b.toNat_lt
      have hc := c.toNat_lt
      simp only [values, List.mem_cons]
      intro v hv
      rcases hv with hv | hv | hv | hv | hv
      · omega
      · omega
      · omega
      · omega
      · exact ih v hv

theorem octets_values (payload : Bytes) : octets (values payload) = payload := by
  induction payload using encode.induct with
  | case1 => rfl
  | case2 a =>
      have ha : (a.toNat * 16 / 64 * 64 + a.toNat * 16 % 64) / 16 = a.toNat := by omega
      simp only [values, octets, ha, UInt8.ofNat_toNat]
  | case3 a b =>
      have hb := b.toNat_lt
      have hn : (((a.toNat * 256 + b.toNat) * 4 / 4096 * 64 +
          (a.toNat * 256 + b.toNat) * 4 / 64 % 64) * 64 +
          (a.toNat * 256 + b.toNat) * 4 % 64) / 4 = a.toNat * 256 + b.toNat := by omega
      have hhi : (a.toNat * 256 + b.toNat) / 256 = a.toNat := by omega
      have hlo : (a.toNat * 256 + b.toNat) % 256 = b.toNat := by omega
      simp only [values, octets, hn, hhi, hlo, UInt8.ofNat_toNat]
  | case4 a b c rest ih =>
      have hb := b.toNat_lt
      have hc := c.toNat_lt
      obtain ⟨n, hdef⟩ : ∃ n, n = (a.toNat * 256 + b.toNat) * 256 + c.toNat := ⟨_, rfl⟩
      have hn : ((n / 262144 * 64 + n / 4096 % 64) * 64 + n / 64 % 64) * 64 + n % 64 = n := by
        omega
      have hhi : n / 65536 = a.toNat := by omega
      have hmid : n / 256 % 256 = b.toNat := by omega
      have hlo : n % 256 = c.toNat := by omega
      simp only [values, octets, ← hdef, hn, hhi, hmid, hlo, ih, UInt8.ofNat_toNat]

/-- Digits and padding together fill groups of four. -/
theorem padding_cases (payload : Bytes) :
    (padding payload = [] ∧ (values payload).length % 4 = 0) ∨
      (padding payload = ['=', '='] ∧ (values payload).length % 4 = 2) ∨
        (padding payload = ['='] ∧ (values payload).length % 4 = 3) := by
  induction payload using encode.induct with
  | case1 => exact .inl ⟨rfl, rfl⟩
  | case2 a => exact .inr (.inl ⟨rfl, rfl⟩)
  | case3 a b => exact .inr (.inr ⟨rfl, rfl⟩)
  | case4 a b c rest ih =>
      have hshift : (values (a :: b :: c :: rest)).length % 4 = (values rest).length % 4 := by
        simp only [values, List.length_cons]
        omega
      rw [hshift]
      exact ih

theorem checkPadding_padding (payload : Bytes) :
    checkPadding (values payload).length 0 (padding payload) = .ok () := by
  rcases padding_cases payload with ⟨hp, hlen⟩ | ⟨hp, hlen⟩ | ⟨hp, hlen⟩
  · simp [hp, checkPadding, hlen]
  · simp [hp, checkPadding, hlen]
  · simp [hp, checkPadding, hlen]

/-! ## The characters of a payload text -/

theorem isDigit_digit {v : Nat} (h : v < 64) : isDigit (digit v) = true := by
  rw [isDigit, value?_digit h]
  rfl

theorem digit_or_padding_of_mem {payload : Bytes} {c : Char} (h : c ∈ encode payload) :
    isDigit c = true ∨ c = '=' := by
  rw [encode_eq, List.mem_append, List.mem_map] at h
  rcases h with ⟨v, hv, rfl⟩ | hc
  · exact .inl (isDigit_digit (values_lt payload v hv))
  · rcases padding_cases payload with ⟨hp, -⟩ | ⟨hp, -⟩ | ⟨hp, -⟩
    · simp [hp] at hc
    · exact .inr (by simpa [hp] using hc)
    · exact .inr (by simpa [hp] using hc)

theorem toNat_lt_of_isDigit {c : Char} (h : isDigit c = true) : c.toNat < 0x80 := by
  simp only [isDigit, value?] at h
  split at h
  · omega
  · split at h
    · omega
    · split at h
      · omega
      · split at h
        · rename_i hc
          rw [hc]
          decide
        · split at h
          · rename_i hc
            rw [hc]
            decide
          · cases h

theorem toNat_lt_of_mem_encode {payload : Bytes} {c : Char} (h : c ∈ encode payload) :
    c.toNat < 0x80 := by
  rcases digit_or_padding_of_mem h with hd | rfl
  · exact toNat_lt_of_isDigit hd
  · decide

/-- Payload text is free of blanks and of markup. -/
theorem not_mem_encode {payload : Bytes} {c : Char} (hd : isDigit c = false) (he : c ≠ '=') :
    c ∉ encode payload := by
  intro h
  rcases digit_or_padding_of_mem h with hc | hc
  · rw [hd] at hc
    cases hc
  · exact he hc

theorem isBlank_of_mem_encode {payload : Bytes} {c : Char} (h : c ∈ encode payload) :
    Text.isBlank c = false := by
  cases hb : Text.isBlank c with
  | false => rfl
  | true =>
      have apart : Text.isBlank c = true → isDigit c = false ∧ c ≠ '=' :=
        Text.of_ascii (P := fun d => Text.isBlank d = true → isDigit d = false ∧ d ≠ '=')
          (by decide +kernel) (toNat_lt_of_mem_encode h)
      exact absurd h (not_mem_encode (apart hb).1 (apart hb).2)

theorem encode_ne_nil {payload : Bytes} (h : payload ≠ []) : encode payload ≠ [] := by
  cases payload using encode.induct with
  | case1 => exact absurd rfl h
  | case2 a => simp [encode]
  | case3 a b => simp [encode]
  | case4 a b c rest => simp [encode]

/-! ## Reading -/

theorem filterMap_value?_digit {vs : List Nat} (h : ∀ v ∈ vs, v < 64) :
    (vs.map digit).filterMap value? = vs := by
  induction vs with
  | nil => rfl
  | cons v vs ih =>
      rw [List.map_cons, List.filterMap_cons_some (value?_digit (h v (by simp)))]
      rw [ih fun w hw => h w (by simp [hw])]

theorem isDigit_of_mem_values {payload : Bytes} {c : Char}
    (h : c ∈ (values payload).map digit) : isDigit c = true := by
  obtain ⟨v, hv, rfl⟩ := List.mem_map.mp h
  exact isDigit_digit (values_lt payload v hv)

theorem takeWhile_isDigit_encode (payload : Bytes) :
    (encode payload).takeWhile isDigit = (values payload).map digit := by
  have hpad : isDigit '=' = false := rfl
  rw [encode_eq, List.takeWhile_append_of_pos fun c hc => isDigit_of_mem_values hc]
  rcases padding_cases payload with ⟨hp, -⟩ | ⟨hp, -⟩ | ⟨hp, -⟩
  · simp [hp]
  · simp [hp, hpad]
  · simp [hp, hpad]

theorem dropWhile_isDigit_encode (payload : Bytes) :
    (encode payload).dropWhile isDigit = padding payload := by
  have hpad : isDigit '=' = false := rfl
  rw [encode_eq, List.dropWhile_append_of_pos fun c hc => isDigit_of_mem_values hc]
  rcases padding_cases payload with ⟨hp, -⟩ | ⟨hp, -⟩ | ⟨hp, -⟩
  · simp [hp]
  · simp [hp, hpad]
  · simp [hp, hpad]

/-- Padding comes behind digits only. -/
theorem head?_encode_ne_padding (payload : Bytes) : (encode payload).head? ≠ some '=' := by
  rw [encode_eq]
  cases hv : values payload with
  | nil =>
      rcases padding_cases payload with ⟨hp, -⟩ | ⟨-, hlen⟩ | ⟨-, hlen⟩
      · simp [hp]
      · simp [hv] at hlen
      · simp [hv] at hlen
  | cons v vs =>
      intro h
      simp only [List.map_cons, List.cons_append, List.head?_cons, Option.some.injEq] at h
      have hd := isDigit_digit (values_lt payload v (by simp [hv]))
      rw [h] at hd
      cases hd

theorem decode_encode (payload : Bytes) : decode (encode payload) = .ok payload := by
  have hascii : (encode payload).any (fun c => decide (0x80 ≤ c.toNat)) = false := by
    rw [List.any_eq_false]
    intro c hc
    have hlt := toNat_lt_of_mem_encode hc
    simp only [decide_eq_true_eq]
    omega
  rw [decode, hascii, if_neg (by simp), if_neg (head?_encode_ne_padding payload),
    takeWhile_isDigit_encode, dropWhile_isDigit_encode]
  simp only [List.length_map, checkPadding_padding, filterMap_value?_digit (values_lt payload),
    octets_values]

theorem checkPadding_of_foreign {c : Char} (he : c ≠ '=') {t : Text} (hc : c ∈ t)
    (digits pads : Nat) : ∃ fault, checkPadding digits pads t = .error fault := by
  induction t generalizing pads with
  | nil => cases hc
  | cons d t ih =>
      by_cases hde : d = '='
      · subst hde
        have htail : c ∈ t := (List.mem_cons.mp hc).resolve_left he
        rw [checkPadding, if_pos rfl]
        split
        · cases t with
          | nil => cases htail
          | cons b t => exact ⟨_, rfl⟩
        · exact ih htail (pads + 1)
      · rw [checkPadding, if_neg hde]
        split
        · exact ⟨_, rfl⟩
        · exact ⟨_, rfl⟩

/-- A text with a character outside the alphabet and the padding is no payload. -/
theorem decode_of_foreign {c : Char} (hd : isDigit c = false) (he : c ≠ '=') {t : Text}
    (hc : c ∈ t) : ∃ fault, decode t = .error fault := by
  unfold decode
  split
  · exact ⟨_, rfl⟩
  · split
    · exact ⟨_, rfl⟩
    · have hdrop : c ∈ t.dropWhile isDigit := by
        have hcut := List.takeWhile_append_dropWhile (p := isDigit) (l := t)
        rw [← hcut, List.mem_append] at hc
        refine hc.resolve_left fun htake => ?_
        rw [List.all_eq_true.mp List.all_takeWhile c htake] at hd
        cases hd
      obtain ⟨fault, hfault⟩ :=
        checkPadding_of_foreign he hdrop (t.takeWhile isDigit).length 0
      exact ⟨fault, by simp only [hfault]⟩

end PageManifest.Base64
