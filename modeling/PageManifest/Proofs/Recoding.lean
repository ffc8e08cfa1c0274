import PageManifest.Proofs.Coding

/-! # Octets are encoded again as they were

A step of reading takes exactly the octets of the character that it reads.  So
what follows the mark of a coding is the encoded form of the text it decodes to,
and a document that is read and written again keeps every octet.
-/

namespace PageManifest.Charset

theorem toNat_ofNat {n : Nat} (h : n < 0xd800 ∨ (0xdfff < n ∧ n < 0x110000)) :
    (Char.ofNat n).toNat = n := by
  have hvalid : n.isValidChar := h
  rw [Char.ofNat, dif_pos hvalid]
  rfl

theorem eq_octet {b : UInt8} {n : Nat} (h : b.toNat = n) : b = UInt8.ofNat n := by
  rw [← h, UInt8.ofNat_toNat]

/-- Reading takes no other octets for a character than its own. -/
def TakesOwn (step : UInt8 → Bytes → Step) (octets : Char → Bytes) : Prop :=
  ∀ b bs c rest, step b bs = .ok (c, rest) → b :: bs = octets c ++ rest

namespace Utf8

theorem octets_one {n : Nat} (h : n < 0x80) : octets (Char.ofNat n) = [UInt8.ofNat n] := by
  have hn : (Char.ofNat n).toNat = n := toNat_ofNat (by omega)
  simp only [octets, hn, h, if_true]

theorem octets_two {n : Nat} (hlow : 0x80 ≤ n) (hhigh : n < 0x800) :
    octets (Char.ofNat n) = [UInt8.ofNat (0xc0 + n / 0x40), UInt8.ofNat (0x80 + n % 0x40)] := by
  have hn : (Char.ofNat n).toNat = n := toNat_ofNat (by omega)
  have hone : ¬ n < 0x80 := by omega
  simp only [octets, hn, hone, hhigh, if_true, if_false]

theorem octets_three {n : Nat} (hlow : 0x800 ≤ n) (hhigh : n < 0x10000)
    (hgap : n < 0xd800 ∨ 0xdfff < n) :
    octets (Char.ofNat n) = [UInt8.ofNat (0xe0 + n / 0x1000),
      UInt8.ofNat (0x80 + n / 0x40 % 0x40), UInt8.ofNat (0x80 + n % 0x40)] := by
  have hn : (Char.ofNat n).toNat = n := toNat_ofNat (by omega)
  have hone : ¬ n < 0x80 := by omega
  have htwo : ¬ n < 0x800 := by omega
  simp only [octets, hn, hone, htwo, hhigh, if_true, if_false]

theorem octets_four {n : Nat} (hlow : 0x10000 ≤ n) (hhigh : n < 0x110000) :
    octets (Char.ofNat n) = [UInt8.ofNat (0xf0 + n / 0x40000),
      UInt8.ofNat (0x80 + n / 0x1000 % 0x40), UInt8.ofNat (0x80 + n / 0x40 % 0x40),
      UInt8.ofNat (0x80 + n % 0x40)] := by
  have hn : (Char.ofNat n).toNat = n := toNat_ofNat (by omega)
  have hone : ¬ n < 0x80 := by omega
  have htwo : ¬ n < 0x800 := by omega
  have hthree : ¬ n < 0x10000 := by omega
  simp only [octets, hn, hone, htwo, hthree, if_false]

theorem isContinuation_iff {b : UInt8} :
    isContinuation b = true ↔ 0x80 ≤ b.toNat ∧ b.toNat ≤ 0xbf := by
  simp only [isContinuation, Bool.and_eq_true, decide_eq_true_eq]

/-- What a leading octet rules out of the octet behind it. -/
theorem bounds_of_admitsSecond {lead second : UInt8} (h : admitsSecond lead second = true) :
    (0x80 ≤ second.toNat ∧ second.toNat ≤ 0xbf) ∧
      (lead.toNat = 0xe0 → 0xa0 ≤ second.toNat) ∧ (lead.toNat = 0xed → second.toNat ≤ 0x9f) ∧
      (lead.toNat = 0xf0 → 0x90 ≤ second.toNat) ∧ (lead.toNat = 0xf4 → second.toNat ≤ 0x8f) := by
  unfold admitsSecond at h
  split at h
  case h_5 hshort hsurrogate hlow hhigh =>
    simp only [Bool.and_eq_true, decide_eq_true_eq] at h
    exact ⟨h, fun he => (hshort he).elim, fun he => (hsurrogate he).elim,
      fun he => (hlow he).elim, fun he => (hhigh he).elim⟩
  all_goals
    simp only [Bool.and_eq_true, decide_eq_true_eq] at h
    omega

theorem octets_of_two {lead second : UInt8} (hstart : 0xc2 ≤ lead.toNat)
    (hlead : lead.toNat < 0xe0) (hsecond : isContinuation second = true) :
    octets (Char.ofNat ((lead.toNat - 0xc0) * 0x40 + (second.toNat - 0x80))) = [lead, second] := by
  have hbounds := isContinuation_iff.mp hsecond
  rw [octets_two (by omega) (by omega), ← eq_octet (b := lead) (by omega),
    ← eq_octet (b := second) (by omega)]

theorem octets_of_three {lead second third : UInt8} (hstart : 0xe0 ≤ lead.toNat)
    (hlead : lead.toNat < 0xf0) (hsecond : admitsSecond lead second = true)
    (hthird : isContinuation third = true) :
    octets (Char.ofNat ((lead.toNat - 0xe0) * 0x1000 + (second.toNat - 0x80) * 0x40 +
      (third.toNat - 0x80))) = [lead, second, third] := by
  obtain ⟨hbounds, hshort, hsurrogate, -, -⟩ := bounds_of_admitsSecond hsecond
  have hbounds' := isContinuation_iff.mp hthird
  rw [octets_three (by omega) (by omega) (by omega), ← eq_octet (b := lead) (by omega),
    ← eq_octet (b := second) (by omega), ← eq_octet (b := third) (by omega)]

theorem octets_of_four {lead second third fourth : UInt8} (hstart : 0xf0 ≤ lead.toNat)
    (hlead : lead.toNat < 0xf5) (hsecond : admitsSecond lead second = true)
    (hthird : isContinuation third = true) (hfourth : isContinuation fourth = true) :
    octets (Char.ofNat ((lead.toNat - 0xf0) * 0x40000 + (second.toNat - 0x80) * 0x1000 +
      (third.toNat - 0x80) * 0x40 + (fourth.toNat - 0x80))) = [lead, second, third, fourth] := by
  obtain ⟨hbounds, -, -, hlow, hhigh⟩ := bounds_of_admitsSecond hsecond
  have hbounds' := isContinuation_iff.mp hthird
  have hbounds'' := isContinuation_iff.mp hfourth
  rw [octets_four (by omega) (by omega), ← eq_octet (b := lead) (by omega),
    ← eq_octet (b := second) (by omega), ← eq_octet (b := third) (by omega),
    ← eq_octet (b := fourth) (by omega)]

/-- The cases are the numbers of octets; leading octets settle which one it is. -/
theorem takesOwn : TakesOwn step octets := by
  intro lead bs c rest h
  unfold step at h
  by_cases hone : lead.toNat < 0x80
  · simp only [hone, if_true, Except.ok.injEq, Prod.mk.injEq] at h
    obtain ⟨rfl, rfl⟩ := h
    rw [octets_one hone, UInt8.ofNat_toNat, List.singleton_append]
  by_cases hstart : lead.toNat < 0xc2
  · simp [hone, hstart] at h
  by_cases htwo : lead.toNat < 0xe0
  · simp only [hone, hstart, htwo, if_true, if_false] at h
    cases bs with
    | nil => cases h
    | cons x bs =>
        cases hx : isContinuation x with
        | false => simp [hx] at h
        | true =>
            simp only [hx, if_true, Except.ok.injEq, Prod.mk.injEq] at h
            obtain ⟨rfl, rfl⟩ := h
            rw [octets_of_two (by omega) htwo hx]
            rfl
  by_cases hlong : lead.toNat < 0xf5
  · simp only [hone, hstart, htwo, hlong, if_true, if_false] at h
    cases bs with
    | nil => cases h
    | cons x bs =>
    cases hx : admitsSecond lead x with
    | false => simp [hx] at h
    | true =>
    simp only [hx, Bool.not_true, Bool.false_eq_true, if_false] at h
    cases bs with
    | nil => cases h
    | cons y bs =>
    cases hy : isContinuation y with
    | false => simp [hy] at h
    | true =>
    simp only [hy, Bool.not_true, Bool.false_eq_true, if_false] at h
    by_cases hthree : lead.toNat < 0xf0
    · simp only [hthree, if_true, Except.ok.injEq, Prod.mk.injEq] at h
      obtain ⟨rfl, rfl⟩ := h
      rw [octets_of_three (by omega) hthree hx hy]
      rfl
    · simp only [hthree, if_false] at h
      cases bs with
      | nil => cases h
      | cons z bs =>
          cases hz : isContinuation z with
          | false => simp [hz] at h
          | true =>
              simp only [hz, if_true, Except.ok.injEq, Prod.mk.injEq] at h
              obtain ⟨rfl, rfl⟩ := h
              rw [octets_of_four (by omega) hlong hx hy hz]
              rfl
  · simp [hone, hstart, htwo, hlong] at h

end Utf8

namespace Utf16

theorem unit_unitOf (order : ByteOrder) (a b : UInt8) : unit order (unitOf order a b) = [a, b] := by
  have ha := a.toNat_lt
  have hb := b.toNat_lt
  cases order with
  | little =>
      have hhigh : b = UInt8.ofNat ((b.toNat * 0x100 + a.toNat) / 0x100) := eq_octet (by omega)
      have hlow : a = UInt8.ofNat ((b.toNat * 0x100 + a.toNat) % 0x100) := eq_octet (by omega)
      simp only [unit, unitOf, ByteOrder.arrange, ← hhigh, ← hlow]
      rfl
  | big =>
      have hhigh : a = UInt8.ofNat ((a.toNat * 0x100 + b.toNat) / 0x100) := eq_octet (by omega)
      have hlow : b = UInt8.ofNat ((a.toNat * 0x100 + b.toNat) % 0x100) := eq_octet (by omega)
      simp only [unit, unitOf, ByteOrder.arrange, ← hhigh, ← hlow]

theorem unitOf_lt (order : ByteOrder) (a b : UInt8) : unitOf order a b < 0x10000 := by
  have ha := a.toNat_lt
  have hb := b.toNat_lt
  cases order with
  | little =>
      simp only [unitOf]
      omega
  | big =>
      simp only [unitOf]
      omega

theorem takesOwn (order : ByteOrder) : TakesOwn (step order) (octets order) := by
  intro a bs c rest h
  cases bs with
  | nil => cases h
  | cons b bs =>
      have hunit := unitOf_lt order a b
      simp only [step] at h
      by_cases hsingle : unitOf order a b < 0xd800 ∨ 0xe000 ≤ unitOf order a b
      · simp only [hsingle, if_true, Except.ok.injEq, Prod.mk.injEq] at h
        obtain ⟨rfl, rfl⟩ := h
        have hn : (Char.ofNat (unitOf order a b)).toNat = unitOf order a b :=
          toNat_ofNat (by omega)
        simp only [octets, hn, hunit, if_true, unit_unitOf, List.cons_append, List.nil_append]
      by_cases hlone : 0xdc00 ≤ unitOf order a b
      · simp [hsingle, hlone] at h
      · simp only [hsingle, hlone, if_false] at h
        cases bs with
        | nil => cases h
        | cons d bs =>
        cases bs with
        | nil => cases h
        | cons e bs =>
            have htrail := unitOf_lt order d e
            by_cases hpair : 0xdc00 ≤ unitOf order d e ∧ unitOf order d e < 0xe000
            · simp only [hpair, and_self, if_true, Except.ok.injEq, Prod.mk.injEq] at h
              obtain ⟨rfl, rfl⟩ := h
              have hn : (Char.ofNat (0x10000 + (unitOf order a b - 0xd800) * 0x400 +
                  (unitOf order d e - 0xdc00))).toNat = 0x10000 +
                    (unitOf order a b - 0xd800) * 0x400 + (unitOf order d e - 0xdc00) :=
                toNat_ofNat (by omega)
              have hplane : ¬ 0x10000 + (unitOf order a b - 0xd800) * 0x400 +
                  (unitOf order d e - 0xdc00) < 0x10000 := by omega
              have hfirst : 0xd800 + (0x10000 + (unitOf order a b - 0xd800) * 0x400 +
                  (unitOf order d e - 0xdc00) - 0x10000) / 0x400 = unitOf order a b := by omega
              have hsecond : 0xdc00 + (0x10000 + (unitOf order a b - 0xd800) * 0x400 +
                  (unitOf order d e - 0xdc00) - 0x10000) % 0x400 = unitOf order d e := by omega
              simp only [octets, hn, hplane, if_false, hfirst, hsecond, unit_unitOf,
                List.cons_append, List.nil_append]
            · simp [hpair] at h

end Utf16

namespace Utf32

theorem arrange_codeOf (order : ByteOrder) (a b c d : UInt8) (h : codeOf order a b c d < 0x110000) :
    order.arrange [0, UInt8.ofNat (codeOf order a b c d / 0x10000),
      UInt8.ofNat (codeOf order a b c d / 0x100 % 0x100),
      UInt8.ofNat (codeOf order a b c d % 0x100)] = [a, b, c, d] := by
  have ha := a.toNat_lt
  have hb := b.toNat_lt
  have hc := c.toNat_lt
  have hd := d.toNat_lt
  cases order with
  | little =>
      simp only [codeOf] at h ⊢
      rw [← eq_octet (b := c) (by omega), ← eq_octet (b := b) (by omega),
        ← eq_octet (b := a) (by omega), eq_octet (b := d) (n := 0) (by omega)]
      rfl
  | big =>
      simp only [codeOf] at h ⊢
      rw [← eq_octet (b := b) (by omega), ← eq_octet (b := c) (by omega),
        ← eq_octet (b := d) (by omega), eq_octet (b := a) (n := 0) (by omega)]
      rfl

theorem takesOwn (order : ByteOrder) : TakesOwn (step order) (octets order) := by
  intro a bs ch rest h
  match bs, h with
  | [], h => cases h
  | [_], h => cases h
  | [_, _], h => cases h
  | b :: c :: d :: bs, h =>
      simp only [step] at h
      by_cases hsurrogate : 0xd800 ≤ codeOf order a b c d ∧ codeOf order a b c d < 0xe000
      · simp [hsurrogate] at h
      by_cases hbeyond : 0x110000 ≤ codeOf order a b c d
      · simp [hsurrogate, hbeyond] at h
      · simp only [hsurrogate, hbeyond, if_false, Except.ok.injEq, Prod.mk.injEq] at h
        obtain ⟨rfl, rfl⟩ := h
        have hn : (Char.ofNat (codeOf order a b c d)).toNat = codeOf order a b c d :=
          toNat_ofNat (by omega)
        simp only [octets, hn, arrange_codeOf order a b c d (by omega), List.cons_append,
          List.nil_append]

end Utf32

namespace Western

/-- The table has every octet that it assigns at its code point, and there only. -/
theorem octet?_of_codeOf?_eq : ∀ n < 0x100, ∀ code, codeOf? (UInt8.ofNat n) = some code →
    octet? (Char.ofNat code) = some (UInt8.ofNat n) := by
  decide +kernel

end Western

namespace Codec

variable {k : Codec} {t : Text} {content : Bytes}

theorem takesOwn (k : Codec) : TakesOwn (k.step .little) k.octets := by
  intro b bs c rest hstep
  have hb := b.toNat_lt
  cases k with
  | ascii =>
      simp only [step, Ascii.step] at hstep
      by_cases hlow : b.toNat < 0x80
      · simp only [hlow, if_true, Except.ok.injEq, Prod.mk.injEq] at hstep
        obtain ⟨rfl, rfl⟩ := hstep
        have hn : (Char.ofNat b.toNat).toNat = b.toNat := toNat_ofNat (by omega)
        simp only [octets, hn, hlow, if_true, UInt8.ofNat_toNat, List.singleton_append]
      · simp [hlow] at hstep
  | latin1 =>
      simp only [step, Latin1.step, Except.ok.injEq, Prod.mk.injEq] at hstep
      obtain ⟨rfl, rfl⟩ := hstep
      have hn : (Char.ofNat b.toNat).toNat = b.toNat := toNat_ofNat (by omega)
      have hlatin : b.toNat < 0x100 := by omega
      simp only [octets, hn, hlatin, if_true, UInt8.ofNat_toNat, List.singleton_append]
  | western =>
      simp only [step, Western.step] at hstep
      cases hcode : Western.codeOf? b with
      | none => simp [hcode] at hstep
      | some code =>
          simp only [hcode, Except.ok.injEq, Prod.mk.injEq] at hstep
          obtain ⟨rfl, rfl⟩ := hstep
          have hback := Western.octet?_of_codeOf?_eq b.toNat hb code
          rw [UInt8.ofNat_toNat] at hback
          simp only [octets, hback hcode, Option.toList_some, List.singleton_append]
  | utf8 => exact Utf8.takesOwn b bs c rest hstep
  | utf8Marked => exact Utf8.takesOwn b bs c rest hstep
  | utf16 => exact Utf16.takesOwn .little b bs c rest hstep
  | utf16Fixed order => exact Utf16.takesOwn order b bs c rest hstep
  | utf32 => exact Utf32.takesOwn .little b bs c rest hstep
  | utf32Fixed order => exact Utf32.takesOwn order b bs c rest hstep

/-- Reading to the end takes the octets of the text that it reads, behind those seen before. -/
theorem body_of_readAll {coding : String} {finish fuel : Nat} {seen : Text}
    (hfuel : content.length ≤ fuel)
    (hread : readAll coding (k.step .little) finish fuel seen content = .ok t) :
    k.body t = k.body seen.reverse ++ content := by
  induction fuel generalizing seen content with
  | zero =>
      cases content with
      | nil =>
          cases hread
          rw [List.append_nil]
      | cons b bs => simp at hfuel
  | succ fuel ih =>
      cases content with
      | nil =>
          cases hread
          rw [List.append_nil]
      | cons b bs =>
          rw [readAll] at hread
          split at hread
          · rename_i c rest hstep
            have hown := takesOwn k b bs c rest hstep
            have hlength : rest.length ≤ fuel := by
              have hne : k.octets c ≠ [] := octets_ne_nil (encodes_of_step hstep)
              have hpos := List.length_pos_iff.mpr hne
              have hsum := congrArg List.length hown
              simp only [List.length_cons, List.length_append] at hsum hfuel
              omega
            rw [ih hlength hread, hown, List.reverse_cons, body_append, List.append_assoc]
            simp [body]
          · cases hread

/-- Octets that begin with the mark of their coding are encoded again as they were. -/
theorem encode_of_decode (hmark : k.mark <+: content) (h : k.decode content = .ok t) :
    k.encode t = .ok content := by
  obtain ⟨rest, rfl⟩ := hmark
  have hencodes := encodes_of_decode h
  rw [decode, takeMark_mark_append] at h
  have hbody : k.body t = rest := body_of_readAll (Nat.le_refl _) h
  rw [encode_of_encodes hencodes, hbody]

end Codec

end PageManifest.Charset
