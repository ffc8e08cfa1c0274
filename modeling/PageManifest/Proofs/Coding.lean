import PageManifest.Charset.Basic
import PageManifest.Proofs.Offsets

/-! # Encoded texts are read back

Every coding reads a character back from its octets whatever follows them, so a
text that has an encoded form is read back from it.  What is read from octets has
an encoded form in turn.
-/

namespace PageManifest.Charset

/-- Reading takes a character off the front of any octets that begin with `octets`. -/
def ReadsBack (step : UInt8 → Bytes → Step) (octets : Bytes) (c : Char) : Prop :=
  ∃ b bs, octets = b :: bs ∧ ∀ rest, step b (bs ++ rest) = .ok (c, rest)

theorem toNat_octet {n : Nat} (h : n < 0x100) : (UInt8.ofNat n).toNat = n :=
  UInt8.toNat_ofNat_of_lt' h

/-- Characters are the code points of Unicode without the surrogates. -/
theorem scalar_toNat (c : Char) : c.toNat < 0x110000 ∧ (c.toNat < 0xd800 ∨ 0xdfff < c.toNat) := by
  have hvalid : c.toNat < 0xd800 ∨ 0xdfff < c.toNat ∧ c.toNat < 0x110000 := c.valid
  omega

theorem ofNat_eq (c : Char) {n : Nat} (h : n = c.toNat) : Char.ofNat n = c := by
  rw [h, Char.ofNat_toNat]

namespace Utf8

theorem isContinuation_octet {n : Nat} (h : n < 0x40) :
    isContinuation (UInt8.ofNat (0x80 + n)) = true := by
  have hn : (UInt8.ofNat (0x80 + n)).toNat = 0x80 + n := toNat_octet (by omega)
  simp only [isContinuation, hn, Bool.and_eq_true, decide_eq_true_eq]
  omega

/-- The four special leading octets are the ones at the ends of a range of code points. -/
theorem admitsSecond_octet {l n : Nat} (hlead : l < 0x100) (hn : n < 0x40)
    (hshort : l = 0xe0 → 0x20 ≤ n) (hsurrogate : l = 0xed → n < 0x20)
    (hlow : l = 0xf0 → 0x10 ≤ n) (hhigh : l = 0xf4 → n < 0x10) :
    admitsSecond (UInt8.ofNat l) (UInt8.ofNat (0x80 + n)) = true := by
  have hb : (UInt8.ofNat (0x80 + n)).toNat = 0x80 + n := toNat_octet (by omega)
  unfold admitsSecond
  rw [toNat_octet hlead, hb]
  split
  all_goals simp only [Bool.and_eq_true, decide_eq_true_eq]
  all_goals omega

theorem step_one {n : Nat} (h : n < 0x80) (rest : Bytes) :
    step (UInt8.ofNat n) rest = .ok (Char.ofNat n, rest) := by
  have hlead : (UInt8.ofNat n).toNat = n := toNat_octet (by omega)
  simp only [step, hlead, h, if_true]

theorem step_two {n : Nat} (hlow : 0x80 ≤ n) (hhigh : n < 0x800) (rest : Bytes) :
    step (UInt8.ofNat (0xc0 + n / 0x40)) (UInt8.ofNat (0x80 + n % 0x40) :: rest) =
      .ok (Char.ofNat n, rest) := by
  have hlead : (UInt8.ofNat (0xc0 + n / 0x40)).toNat = 0xc0 + n / 0x40 := toNat_octet (by omega)
  have hb : (UInt8.ofNat (0x80 + n % 0x40)).toNat = 0x80 + n % 0x40 := toNat_octet (by omega)
  have hcont := isContinuation_octet (n := n % 0x40) (by omega)
  have hplain : ¬ 0xc0 + n / 0x40 < 0x80 := by omega
  have hstart : ¬ 0xc0 + n / 0x40 < 0xc2 := by omega
  have htwo : 0xc0 + n / 0x40 < 0xe0 := by omega
  have hn : (0xc0 + n / 0x40 - 0xc0) * 0x40 + (0x80 + n % 0x40 - 0x80) = n := by omega
  simp only [step, hlead, hb, hplain, hstart, htwo, hcont, if_true, if_false, hn]

theorem step_three {n : Nat} (hlow : 0x800 ≤ n) (hhigh : n < 0x10000)
    (hgap : n < 0xd800 ∨ 0xdfff < n) (rest : Bytes) :
    step (UInt8.ofNat (0xe0 + n / 0x1000)) (UInt8.ofNat (0x80 + n / 0x40 % 0x40) ::
      UInt8.ofNat (0x80 + n % 0x40) :: rest) = .ok (Char.ofNat n, rest) := by
  have hlead : (UInt8.ofNat (0xe0 + n / 0x1000)).toNat = 0xe0 + n / 0x1000 :=
    toNat_octet (by omega)
  have hb : (UInt8.ofNat (0x80 + n / 0x40 % 0x40)).toNat = 0x80 + n / 0x40 % 0x40 :=
    toNat_octet (by omega)
  have hc : (UInt8.ofNat (0x80 + n % 0x40)).toNat = 0x80 + n % 0x40 := toNat_octet (by omega)
  have hadmits := admitsSecond_octet (l := 0xe0 + n / 0x1000) (n := n / 0x40 % 0x40)
    (by omega) (by omega) (by omega) (by omega) (by omega) (by omega)
  have hcont := isContinuation_octet (n := n % 0x40) (by omega)
  have hplain : ¬ 0xe0 + n / 0x1000 < 0x80 := by omega
  have hstart : ¬ 0xe0 + n / 0x1000 < 0xc2 := by omega
  have htwo : ¬ 0xe0 + n / 0x1000 < 0xe0 := by omega
  have hlong : 0xe0 + n / 0x1000 < 0xf5 := by omega
  have hthree : 0xe0 + n / 0x1000 < 0xf0 := by omega
  have hn : (0xe0 + n / 0x1000 - 0xe0) * 0x1000 + (0x80 + n / 0x40 % 0x40 - 0x80) * 0x40 +
      (0x80 + n % 0x40 - 0x80) = n := by omega
  simp only [step, hlead, hb, hc, hplain, hstart, htwo, hlong, hthree, hadmits, hcont,
    Bool.not_true, Bool.false_eq_true, if_true, if_false, hn]

theorem step_four {n : Nat} (hlow : 0x10000 ≤ n) (hhigh : n < 0x110000) (rest : Bytes) :
    step (UInt8.ofNat (0xf0 + n / 0x40000)) (UInt8.ofNat (0x80 + n / 0x1000 % 0x40) ::
      UInt8.ofNat (0x80 + n / 0x40 % 0x40) :: UInt8.ofNat (0x80 + n % 0x40) :: rest) =
        .ok (Char.ofNat n, rest) := by
  have hlead : (UInt8.ofNat (0xf0 + n / 0x40000)).toNat = 0xf0 + n / 0x40000 :=
    toNat_octet (by omega)
  have hb : (UInt8.ofNat (0x80 + n / 0x1000 % 0x40)).toNat = 0x80 + n / 0x1000 % 0x40 :=
    toNat_octet (by omega)
  have hc : (UInt8.ofNat (0x80 + n / 0x40 % 0x40)).toNat = 0x80 + n / 0x40 % 0x40 :=
    toNat_octet (by omega)
  have hd : (UInt8.ofNat (0x80 + n % 0x40)).toNat = 0x80 + n % 0x40 := toNat_octet (by omega)
  have hadmits := admitsSecond_octet (l := 0xf0 + n / 0x40000) (n := n / 0x1000 % 0x40)
    (by omega) (by omega) (by omega) (by omega) (by omega) (by omega)
  have hcont := isContinuation_octet (n := n / 0x40 % 0x40) (by omega)
  have hcont' := isContinuation_octet (n := n % 0x40) (by omega)
  have hplain : ¬ 0xf0 + n / 0x40000 < 0x80 := by omega
  have hstart : ¬ 0xf0 + n / 0x40000 < 0xc2 := by omega
  have htwo : ¬ 0xf0 + n / 0x40000 < 0xe0 := by omega
  have hlong : 0xf0 + n / 0x40000 < 0xf5 := by omega
  have hthree : ¬ 0xf0 + n / 0x40000 < 0xf0 := by omega
  have hn : (0xf0 + n / 0x40000 - 0xf0) * 0x40000 + (0x80 + n / 0x1000 % 0x40 - 0x80) * 0x1000 +
      (0x80 + n / 0x40 % 0x40 - 0x80) * 0x40 + (0x80 + n % 0x40 - 0x80) = n := by omega
  simp only [step, hlead, hb, hc, hd, hplain, hstart, htwo, hlong, hthree, hadmits, hcont, hcont',
    Bool.not_true, Bool.false_eq_true, if_true, if_false, hn]

theorem readsBack (c : Char) : ReadsBack step (octets c) c := by
  obtain ⟨hmax, hgap⟩ := scalar_toNat c
  have hc := Char.ofNat_toNat c
  unfold octets
  by_cases h1 : c.toNat < 0x80
  · refine ⟨UInt8.ofNat c.toNat, [], by simp only [h1, if_true], fun rest => ?_⟩
    rw [List.nil_append, step_one h1, hc]
  by_cases h2 : c.toNat < 0x800
  · refine ⟨_, [_], by simp only [h1, h2, if_true, if_false]; rfl, fun rest => ?_⟩
    rw [List.singleton_append, step_two (by omega) h2, hc]
  by_cases h3 : c.toNat < 0x10000
  · refine ⟨_, [_, _], by simp only [h1, h2, h3, if_true, if_false]; rfl, fun rest => ?_⟩
    rw [List.cons_append, List.singleton_append, step_three (by omega) h3 hgap, hc]
  · refine ⟨_, [_, _, _], by simp only [h1, h2, h3, if_false]; rfl, fun rest => ?_⟩
    rw [List.cons_append, List.cons_append, List.singleton_append, step_four (by omega) hmax, hc]

end Utf8

namespace Utf16

theorem unit_eq (order : ByteOrder) {n : Nat} (h : n < 0x10000) :
    ∃ a b, unit order n = [a, b] ∧ unitOf order a b = n := by
  have hhigh : (UInt8.ofNat (n / 0x100)).toNat = n / 0x100 := toNat_octet (by omega)
  have hlow : (UInt8.ofNat (n % 0x100)).toNat = n % 0x100 := toNat_octet (by omega)
  cases order with
  | little =>
      refine ⟨_, _, rfl, ?_⟩
      simp only [unitOf, hhigh, hlow]
      omega
  | big =>
      refine ⟨_, _, rfl, ?_⟩
      simp only [unitOf, hhigh, hlow]
      omega

theorem readsBack (order : ByteOrder) (c : Char) : ReadsBack (step order) (octets order c) c := by
  obtain ⟨hmax, hgap⟩ := scalar_toNat c
  unfold octets
  by_cases hplane : c.toNat < 0x10000
  · obtain ⟨a, b, hunit, hof⟩ := unit_eq order hplane
    refine ⟨a, [b], by simp only [hplane, if_true, hunit], fun rest => ?_⟩
    have hsingle : c.toNat < 0xd800 ∨ 0xe000 ≤ c.toNat := by omega
    simp only [step, List.cons_append, List.nil_append, hof, hsingle, if_true, Char.ofNat_toNat]
  · obtain ⟨a, b, hlead, hleadOf⟩ := unit_eq order
      (n := 0xd800 + (c.toNat - 0x10000) / 0x400) (by omega)
    obtain ⟨d, e, htrail, htrailOf⟩ := unit_eq order
      (n := 0xdc00 + (c.toNat - 0x10000) % 0x400) (by omega)
    refine ⟨a, [b, d, e], by simp only [hplane, if_false, hlead, htrail]; rfl, fun rest => ?_⟩
    have hsurrogate : ¬ (0xd800 + (c.toNat - 0x10000) / 0x400 < 0xd800 ∨
        0xe000 ≤ 0xd800 + (c.toNat - 0x10000) / 0x400) := by omega
    have hfirst : ¬ 0xdc00 ≤ 0xd800 + (c.toNat - 0x10000) / 0x400 := by omega
    have hsecond : 0xdc00 ≤ 0xdc00 + (c.toNat - 0x10000) % 0x400 ∧
        0xdc00 + (c.toNat - 0x10000) % 0x400 < 0xe000 := by omega
    simp only [step, List.cons_append, List.nil_append, hleadOf, htrailOf, hsurrogate, hfirst,
      hsecond, if_false, and_self, if_true]
    rw [ofNat_eq c (by omega)]

end Utf16

namespace Utf32

theorem readsBack (order : ByteOrder) (c : Char) : ReadsBack (step order) (octets order c) c := by
  obtain ⟨hmax, hgap⟩ := scalar_toNat c
  have hplane : (UInt8.ofNat (c.toNat / 0x10000)).toNat = c.toNat / 0x10000 :=
    toNat_octet (by omega)
  have hrow : (UInt8.ofNat (c.toNat / 0x100 % 0x100)).toNat = c.toNat / 0x100 % 0x100 :=
    toNat_octet (by omega)
  have hcell : (UInt8.ofNat (c.toNat % 0x100)).toNat = c.toNat % 0x100 := toNat_octet (by omega)
  obtain ⟨a, b, d, e, hoctets, hcode⟩ : ∃ a b d e, octets order c = [a, b, d, e] ∧
      codeOf order a b d e = c.toNat := by
    cases order with
    | little =>
        refine ⟨_, _, _, _, rfl, ?_⟩
        simp only [codeOf, hplane, hrow, hcell, UInt8.toNat_ofNat]
        omega
    | big =>
        refine ⟨_, _, _, _, rfl, ?_⟩
        simp only [codeOf, hplane, hrow, hcell, UInt8.toNat_ofNat]
        omega
  refine ⟨a, [b, d, e], hoctets, fun rest => ?_⟩
  have hchar : ¬ (0xd800 ≤ c.toNat ∧ c.toNat < 0xe000) := by omega
  have hbound : ¬ 0x110000 ≤ c.toNat := by omega
  simp only [step, List.cons_append, List.nil_append, hcode, hchar, hbound, if_false,
    Char.ofNat_toNat]

end Utf32

namespace Western

/-- The table gives back every code point that it assigns. -/
theorem codeOf?_of_octet? {c : Char} {b : UInt8} (h : octet? c = some b) :
    codeOf? b = some c.toNat := by
  unfold octet? at h
  by_cases hplain : c.toNat < 0x80 ∨ (0xa0 ≤ c.toNat ∧ c.toNat ≤ 0xff)
  · simp only [hplain, if_true, Option.some.injEq] at h
    have hb : (UInt8.ofNat c.toNat).toNat = c.toNat := toNat_octet (by omega)
    have hcontrol : ¬ (0x80 ≤ c.toNat ∧ c.toNat ≤ 0x9f) := by omega
    rw [← h]
    simp only [codeOf?, hb, hcontrol, if_false]
  · simp only [hplain, if_false, Option.map_eq_some_iff] at h
    obtain ⟨i, hi, rfl⟩ := h
    obtain ⟨hlen, hcode, -⟩ := List.idxOf?_eq_some_iff.mp hi
    have hbound : i < 32 := hlen
    have hb : (UInt8.ofNat (0x80 + i)).toNat = 0x80 + i := toNat_octet (by omega)
    have hcontrol : 0x80 ≤ 0x80 + i ∧ 0x80 + i ≤ 0x9f := by omega
    have hne : c.toNat ≠ 0 := by omega
    simp only [codeOf?, hb, hcontrol, and_self, if_true, Nat.add_sub_cancel_left,
      List.getElem?_eq_getElem hlen, hcode, hne, if_false]

theorem octet?_of_codeOf? : ∀ n < 0x100, ∀ code, codeOf? (UInt8.ofNat n) = some code →
    (octet? (Char.ofNat code)).isSome = true := by
  decide +kernel

end Western

namespace Codec

/-- A character with an encoded form is read back from it. -/
theorem readsBack {k : Codec} {c : Char} (h : k.encodes c = true) :
    ReadsBack (k.step .little) (k.octets c) c := by
  cases k with
  | ascii =>
      have hc : c.toNat < 0x80 := by simpa [encodes] using h
      have hb : (UInt8.ofNat c.toNat).toNat = c.toNat := toNat_octet (by omega)
      refine ⟨UInt8.ofNat c.toNat, [], by simp only [octets, hc, if_true], fun rest => ?_⟩
      simp only [step, Ascii.step, hb, hc, if_true, List.nil_append, Char.ofNat_toNat]
  | latin1 =>
      have hc : c.toNat < 0x100 := by simpa [encodes] using h
      have hb : (UInt8.ofNat c.toNat).toNat = c.toNat := toNat_octet hc
      refine ⟨UInt8.ofNat c.toNat, [], by simp only [octets, hc, if_true], fun rest => ?_⟩
      simp only [step, Latin1.step, hb, List.nil_append, Char.ofNat_toNat]
  | western =>
      obtain ⟨b, hb⟩ := Option.isSome_iff_exists.mp h
      refine ⟨b, [], by simp only [octets, hb, Option.toList_some], fun rest => ?_⟩
      simp only [step, Western.step, Western.codeOf?_of_octet? hb, List.nil_append,
        Char.ofNat_toNat]
  | utf8 => exact Utf8.readsBack c
  | utf8Marked => exact Utf8.readsBack c
  | utf16 => exact Utf16.readsBack .little c
  | utf16Fixed order => exact Utf16.readsBack order c
  | utf32 => exact Utf32.readsBack .little c
  | utf32Fixed order => exact Utf32.readsBack order c

theorem octets_ne_nil {k : Codec} {c : Char} (h : k.encodes c = true) : k.octets c ≠ [] := by
  obtain ⟨b, bs, hoctets, -⟩ := readsBack h
  simp [hoctets]

theorem body_ne_nil {k : Codec} {t : Text} (h : k.Encodes t) (hne : t ≠ []) : k.body t ≠ [] := by
  cases t with
  | nil => exact absurd rfl hne
  | cons c t => simp [body, octets_ne_nil (h c (by simp))]

/-! ## Whole texts -/

theorem readAll_body {k : Codec} (coding : String) (finish : Nat) {t : Text} (h : k.Encodes t)
    (fuel : Nat) (hfuel : (k.body t).length ≤ fuel) (seen : Text) :
    readAll coding (k.step .little) finish fuel seen (k.body t) = .ok (seen.reverse ++ t) := by
  induction t generalizing fuel seen with
  | nil => cases fuel <;> simp [readAll]
  | cons c t ih =>
      obtain ⟨b, bs, hoctets, hstep⟩ := readsBack (h c (by simp))
      have hbody : k.body (c :: t) = b :: (bs ++ k.body t) := by
        simp [body, hoctets]
      rw [hbody, List.length_cons, List.length_append] at hfuel
      obtain ⟨fuel, rfl⟩ : ∃ n, fuel = n + 1 := ⟨fuel - 1, by omega⟩
      have hrest := ih (fun d hd => h d (by simp [hd])) fuel (by omega) (c :: seen)
      rw [hbody, readAll, hstep]
      simpa using hrest

theorem takeMark_mark_append (k : Codec) (rest : Bytes) :
    k.takeMark (k.mark ++ rest) = (.little, rest) := by
  cases k <;> rfl

theorem decode_of_encode {k : Codec} {t : Text} {bytes : Bytes} (h : k.encode t = .ok bytes) :
    k.decode bytes = .ok t := by
  obtain ⟨ht, rfl⟩ := encode_eq_ok_iff.mp h
  rw [decode, takeMark_mark_append]
  exact readAll_body _ _ ht _ (Nat.le_refl _) []

theorem body_inj {k : Codec} {s t : Text} (hs : k.Encodes s) (ht : k.Encodes t) :
    k.body s = k.body t ↔ s = t := by
  constructor
  · intro h
    have hread := decode_of_encode (encode_of_encodes hs)
    rw [h, decode_of_encode (encode_of_encodes ht)] at hread
    injection hread with hread
    exact hread.symm
  · rintro rfl
    rfl

theorem encodes_of_step {k : Codec} {order : ByteOrder} {b : UInt8} {bs rest : Bytes} {c : Char}
    (h : k.step order b bs = .ok (c, rest)) : k.encodes c = true := by
  have hb := b.toNat_lt
  cases k with
  | ascii =>
      simp only [step, Ascii.step] at h
      split at h
      · rename_i hlow
        injection h with h
        injection h with hc
        rw [← hc]
        revert hlow
        suffices ∀ n < 0x80, encodes .ascii (Char.ofNat n) = true from this b.toNat
        decide
      · cases h
  | latin1 =>
      simp only [step, Latin1.step] at h
      injection h with h
      injection h with hc
      rw [← hc]
      suffices ∀ n < 0x100, encodes .latin1 (Char.ofNat n) = true from this b.toNat hb
      decide +kernel
  | western =>
      simp only [step, Western.step] at h
      split at h
      · rename_i code hcode
        injection h with h
        injection h with hc
        rw [← hc]
        refine Western.octet?_of_codeOf? b.toNat hb code ?_
        rw [UInt8.ofNat_toNat]
        exact hcode
      · cases h
  | utf8 => rfl
  | utf8Marked => rfl
  | utf16 => rfl
  | utf16Fixed order => rfl
  | utf32 => rfl
  | utf32Fixed order => rfl

theorem encodes_of_readAll {k : Codec} {order : ByteOrder} {coding : String}
    {finish fuel : Nat} {seen t : Text} {bytes : Bytes}
    (h : readAll coding (k.step order) finish fuel seen bytes = .ok t) (hseen : k.Encodes seen) :
    k.Encodes t := by
  have hturned : k.Encodes seen.reverse := fun c hc => hseen c (List.mem_reverse.mp hc)
  induction fuel generalizing seen bytes with
  | zero => cases bytes <;> cases h <;> exact hturned
  | succ fuel ih =>
      cases bytes with
      | nil =>
          cases h
          exact hturned
      | cons b bytes =>
          rw [readAll] at h
          split at h
          · rename_i c rest hstep
            have hmore : k.Encodes (c :: seen) := by
              intro d hd
              rcases List.mem_cons.mp hd with rfl | hd
              · exact encodes_of_step hstep
              · exact hseen d hd
            exact ih h hmore fun d hd => hmore d (List.mem_reverse.mp hd)
          · cases h

theorem encodes_of_decode {k : Codec} {t : Text} {bytes : Bytes} (h : k.decode bytes = .ok t) :
    k.Encodes t :=
  encodes_of_readAll h fun _ hc => by cases hc

end Codec

section Charset

variable {charset : Charset} {k : Codec} {t : Text} {bytes : Bytes}

theorem mapError_eq_ok_iff {ε ε' α : Type} {f : ε → ε'} {r : Except ε α} {a : α} :
    r.mapError f = .ok a ↔ r = .ok a := by
  cases r with
  | error e =>
      constructor
      · intro h
        cases h
      · intro h
        cases h
  | ok a' =>
      constructor
      · intro h
        cases h
        rfl
      · intro h
        cases h
        rfl

theorem encode_codec_eq_ok_iff : (codec k).encode t = .ok bytes ↔ k.encode t = .ok bytes :=
  mapError_eq_ok_iff

theorem decode_codec_eq_ok_iff : (codec k).decode bytes = .ok t ↔ k.decode bytes = .ok t :=
  mapError_eq_ok_iff

/-- The coding that is written out here for a name. -/
def codecOf? (name : String) : Option Codec :=
  if name.toList.contains '\x00' then none else (canonicalName? name).bind codec?

/-- What is written out here does not depend on the platform. -/
theorem ofName_of_codecOf? [Platform] {name : String} (h : codecOf? name = some k) :
    ofName name = .codec k := by
  unfold codecOf? at h
  unfold ofName
  split at h
  · cases h
  · rename_i hnul
    rw [if_neg hnul]
    cases hname : canonicalName? name with
    | none =>
        rw [hname] at h
        cases h
    | some canonical =>
        rw [hname] at h
        have hcodec : codec? canonical = some k := h
        simp only [hcodec]

/-- A text is read back from the octets that it is encoded as, if it is encoded at all. -/
def Recalls (charset : Charset) (t : Text) : Prop :=
  ∀ bytes, charset.encode t = .ok bytes → charset.decode bytes = .ok t

theorem recalls_iff_of_encode (h : charset.encode t = .ok bytes) :
    charset.Recalls t ↔ charset.decode bytes = .ok t := by
  constructor
  · intro hrecalls
    exact hrecalls bytes h
  · intro hdecode bytes' h'
    obtain rfl : bytes' = bytes := Except.ok.inj (h'.symm.trans h)
    exact hdecode

theorem recalls_codec (k : Codec) (t : Text) : (codec k).Recalls t := fun _ h =>
  decode_codec_eq_ok_iff.mpr (Codec.decode_of_encode (encode_codec_eq_ok_iff.mp h))

end Charset

end PageManifest.Charset
