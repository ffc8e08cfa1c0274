import PageManifest.Failure
import PageManifest.Proofs.PayloadText

/-! # Payload text and its canonical form

The octets that are read off a payload text have a written form of their own.  The two
agree digit by digit, except that the last digit may hold bits that belong to no octet,
and except for the padding.
-/

namespace PageManifest.Base64

/-- The digits of the standard alphabet, in the order of their values. -/
def alphabet : Text :=
  "ABCDEFGHIJKLMNOPQRSTUVWXYZabcdefghijklmnopqrstuvwxyz0123456789+/".toList

theorem toNat_lt_of_mem_alphabet {c : Char} (h : c ∈ alphabet) : c.toNat < 0x80 := by
  have all : alphabet.all (fun d => d.toNat < 0x80) = true := rfl
  exact of_decide_eq_true (List.all_eq_true.mp all c h)

theorem isDigit_iff_mem_alphabet {c : Char} : isDigit c = true ↔ c ∈ alphabet := by
  have ascii : c.toNat < 0x80 → (isDigit c = true ↔ c ∈ alphabet) :=
    Text.of_ascii (P := fun d => isDigit d = true ↔ d ∈ alphabet) (by decide +kernel)
  exact ⟨fun h => (ascii (toNat_lt_of_isDigit h)).mp h,
    fun h => (ascii (toNat_lt_of_mem_alphabet h)).mpr h⟩

/-! ## Digits and their values -/

theorem value?_eq_some {c : Char} {v : Nat} (h : value? c = some v) : digit v = c ∧ v < 64 := by
  have hc : c.toNat < 0x80 := toNat_lt_of_isDigit (by rw [isDigit, h]; rfl)
  have ascii : ∀ w, value? c = some w → digit w = c ∧ w < 64 :=
    Text.of_ascii (P := fun d => ∀ w, value? d = some w → digit w = d ∧ w < 64) (by
      have each : ∀ n ∈ List.range 0x80, (value? (Char.ofNat n)).all
          (fun w => decide (digit w = Char.ofNat n ∧ w < 64)) = true := by decide +kernel
      intro n hn w hw
      have here := each n hn
      rw [hw] at here
      simpa using here) hc
  exact ascii v h

theorem map_digit_filterMap {data : Text} (h : ∀ c ∈ data, isDigit c = true) :
    (data.filterMap value?).map digit = data := by
  induction data with
  | nil => rfl
  | cons c data ih =>
      obtain ⟨v, hv⟩ := Option.isSome_iff_exists.mp (h c (by simp))
      rw [List.filterMap_cons_some hv, List.map_cons, (value?_eq_some hv).1,
        ih fun d hd => h d (by simp [hd])]

theorem lt_of_mem_filterMap {data : Text} : ∀ v ∈ data.filterMap value?, v < 64 := by
  intro v hv
  obtain ⟨c, -, hc⟩ := List.mem_filterMap.mp hv
  exact (value?_eq_some hc).2

/-! ## Reading and writing again -/

section Groups

variable {a b c d : Nat}

theorem values_octets_four (ha : a < 64) (hb : b < 64) (hc : c < 64) (hd : d < 64)
    (rest : List Nat) :
    values (octets (a :: b :: c :: d :: rest)) = a :: b :: c :: d :: values (octets rest) := by
  obtain ⟨n, hdef⟩ : ∃ n, n = ((a * 64 + b) * 64 + c) * 64 + d := ⟨_, rfl⟩
  have hsum : (n / 65536 % 256 * 256 + n / 256 % 256 % 256) * 256 + n % 256 % 256 = n := by
    omega
  have hfirst : n / 262144 = a ∧ n / 4096 % 64 = b := by omega
  have hsecond : n / 64 % 64 = c ∧ n % 64 = d := by omega
  simp only [octets, values, UInt8.toNat_ofNat', Nat.reducePow, ← hdef, hsum, hfirst, hsecond]

/-- Two octets leave the two low bits of a third digit open. -/
theorem values_octets_three (ha : a < 64) (hb : b < 64) (hc : c < 64) :
    values (octets [a, b, c]) = [a, b, c / 4 * 4] := by
  obtain ⟨n, hdef⟩ : ∃ n, n = ((a * 64 + b) * 64 + c) / 4 := ⟨_, rfl⟩
  have hsum : n / 256 % 256 * 256 + n % 256 % 256 = n := by omega
  have hdigits : n * 4 / 4096 = a ∧ n * 4 / 64 % 64 = b ∧ n * 4 % 64 = c / 4 * 4 := by omega
  simp only [octets, values, UInt8.toNat_ofNat', Nat.reducePow, ← hdef, hsum, hdigits]

/-- One octet leaves the four low bits of a second digit open. -/
theorem values_octets_two (ha : a < 64) (hb : b < 64) :
    values (octets [a, b]) = [a, b / 16 * 16] := by
  have hdigits : (a * 64 + b) / 16 % 256 * 16 / 64 = a ∧
      (a * 64 + b) / 16 % 256 * 16 % 64 = b / 16 * 16 := by omega
  simp only [octets, values, UInt8.toNat_ofNat', Nat.reducePow, hdigits]

end Groups

/-- Values that are equal but for so many low bits. -/
def AgreeAbove (spare v w : Nat) : Prop :=
  v >>> spare = w >>> spare

/--
The values that octets are written with are those that the octets were read off, up to
the bits of the last one that are left over.
-/
theorem exists_values_octets {vs : List Nat} (h : ∀ v ∈ vs, v < 64) (hlen : vs.length % 4 ≠ 1) :
    ∃ front last last', vs = front ++ last ∧ values (octets vs) = front ++ last' ∧
      front.length = 8 * (octets vs).length / 6 ∧ last.length ≤ 1 ∧
        last'.length = last.length ∧ ∀ v ∈ last, ∀ w ∈ last',
          AgreeAbove (6 * vs.length - 8 * (octets vs).length) v w := by
  induction vs using octets.induct with
  | case1 a b c d rest ih =>
      have hrest : rest.length % 4 ≠ 1 := by
        simp only [List.length_cons] at hlen
        omega
      obtain ⟨front, last, last', hvs, hvalues, hfront, hlast, hlast', hagree⟩ :=
        ih (fun v hv => h v (by simp [hv])) hrest
      have hgroup := values_octets_four (h a (by simp)) (h b (by simp)) (h c (by simp))
        (h d (by simp)) rest
      refine ⟨a :: b :: c :: d :: front, last, last', by rw [hvs]; rfl, ?_, ?_, hlast, hlast', ?_⟩
      · rw [hgroup, hvalues]
        rfl
      · simp only [octets, List.length_cons, hfront]
        omega
      · have hspare : 6 * (a :: b :: c :: d :: rest).length -
            8 * (octets (a :: b :: c :: d :: rest)).length =
              6 * rest.length - 8 * (octets rest).length := by
          simp only [octets, List.length_cons]
          omega
        rw [hspare]
        exact hagree
  | case2 a b c =>
      refine ⟨[a, b], [c], [c / 4 * 4], rfl,
        values_octets_three (h a (by simp)) (h b (by simp)) (h c (by simp)), by simp [octets],
        Nat.le_refl 1, rfl, ?_⟩
      simp only [List.mem_singleton, forall_eq]
      change c >>> 2 = (c / 4 * 4) >>> 2
      omega
  | case3 a b =>
      refine ⟨[a], [b], [b / 16 * 16], rfl, values_octets_two (h a (by simp)) (h b (by simp)),
        by simp [octets], Nat.le_refl 1, rfl, ?_⟩
      simp only [List.mem_singleton, forall_eq]
      change b >>> 4 = (b / 16 * 16) >>> 4
      omega
  | case4 vs hfour hthree htwo =>
      rcases vs with _ | ⟨a, _ | ⟨b, _ | ⟨c, _ | ⟨d, rest⟩⟩⟩⟩
      · exact ⟨[], [], [], rfl, rfl, rfl, Nat.zero_le 1, rfl, by simp⟩
      · exact absurd rfl hlen
      · exact absurd rfl (htwo a b)
      · exact absurd rfl (hthree a b c)
      · exact absurd rfl (hfour a b c d rest)

/--
A text is the written form of a payload but for the last digit and the padding.  The
digits in front, as many as octets fill, are the same, and the last ones differ in bits
that belong to no octet at most.
-/
structure Spells (payload : Bytes) (t front last last' : Text) (pads : Nat) : Prop where
  text : t = front ++ last ++ List.replicate pads '='
  canonical : encode payload = front ++ last' ++ padding payload
  inAlphabet : ∀ c ∈ front ++ last, c ∈ alphabet
  filled : front.length = 8 * payload.length / 6
  short : last.length ≤ 1
  paired : last'.length = last.length
  agree : ∀ c ∈ last, ∀ d ∈ last', ∃ v w, value? c = some v ∧ value? d = some w ∧
    AgreeAbove (6 * (front ++ last).length - 8 * payload.length) v w

theorem Spells.take_eq {payload : Bytes} {t front last last' : Text} {pads : Nat}
    (h : Spells payload t front last last' pads) :
    t.take (8 * payload.length / 6) = (encode payload).take (8 * payload.length / 6) := by
  rw [← h.filled, h.text, h.canonical, List.append_assoc, List.append_assoc, List.take_left,
    List.take_left]

theorem exists_spells {t : Text} {payload : Bytes} (h : decode t = .ok payload) :
    ∃ front last last' pads, Spells payload t front last last' pads := by
  obtain ⟨data, pads, ht, hdata, hcompletes, -, rfl⟩ := decode_eq_ok_iff.mp h
  obtain ⟨vs, hvs⟩ : ∃ vs, vs = data.filterMap value? := ⟨_, rfl⟩
  have hlength : vs.length = data.length := by rw [hvs, length_filterMap_value? hdata]
  have hbound : ∀ v ∈ vs, v < 64 := by
    rw [hvs]
    exact lt_of_mem_filterMap
  have hspelled : vs.map digit = data := by rw [hvs, map_digit_filterMap hdata]
  have hgroups : vs.length % 4 ≠ 1 := by
    unfold Completes at hcompletes
    omega
  obtain ⟨front, last, last', hcut, hvalues, hfront, hlast, hlast', hagree⟩ :=
    exists_values_octets hbound hgroups
  have hdigits : front.map digit ++ last.map digit = data := by
    rw [← List.map_append, ← hcut, hspelled]
  have hbound' : ∀ w ∈ last', w < 64 := by
    intro w hw
    exact values_lt (octets vs) w (by rw [hvalues]; exact List.mem_append_right _ hw)
  rw [← hvs]
  refine ⟨front.map digit, last.map digit, last'.map digit, pads, ?_, ?_, ?_, ?_, ?_, ?_, ?_⟩
  · rw [hdigits, ht]
  · rw [encode_eq, hvalues, List.map_append]
  · intro c hc
    rw [hdigits] at hc
    exact isDigit_iff_mem_alphabet.mp (hdata c hc)
  · rw [List.length_map, hfront]
  · rw [List.length_map]
    exact hlast
  · rw [List.length_map, List.length_map, hlast']
  · rw [hdigits, ← hlength]
    intro c hc d hd
    obtain ⟨v, hv, rfl⟩ := List.mem_map.mp hc
    obtain ⟨w, hw, rfl⟩ := List.mem_map.mp hd
    have hv64 : v < 64 := hbound v (by rw [hcut]; exact List.mem_append_right _ hv)
    exact ⟨v, w, value?_digit hv64, value?_digit (hbound' w hw), hagree v hv w hw⟩

/--
Whatever is written is read back, and a text is refused as malformed, or it consists of
digits and padding that spell what it yields, up to spare bits of the last digit and the
padding.
-/
theorem payload_coding_strict :
    (∀ payload, (decode (encode payload)).mapError Failure.malformedPayload = .ok payload) ∧
      ∀ t,
        (∃ failure, (decode t).mapError Failure.malformedPayload = .error failure ∧
          failure.category = .payloadMalformed) ∨
        ∃ payload, (decode t).mapError Failure.malformedPayload = .ok payload ∧
          t.take (8 * payload.length / 6) = (encode payload).take (8 * payload.length / 6) ∧
            ∃ front last last' pads, Spells payload t front last last' pads := by
  constructor
  · intro payload
    rw [decode_encode]
    rfl
  · intro t
    cases hread : decode t with
    | error fault => exact .inl ⟨.malformedPayload fault, rfl, rfl⟩
    | ok payload =>
        obtain ⟨front, last, last', pads, hspells⟩ := exists_spells hread
        exact .inr ⟨payload, rfl, hspells.take_eq, front, last, last', pads, hspells⟩

/-- Bits of the last digit that belong to no octet, and padding behind complete groups. -/
example : decode "QR==".toList = .ok [0x41] ∧ encode [0x41] = "QQ==".toList ∧
    decode "QUJD==".toList = .ok [0x41, 0x42, 0x43] :=
  ⟨rfl, rfl, rfl⟩

end PageManifest.Base64
