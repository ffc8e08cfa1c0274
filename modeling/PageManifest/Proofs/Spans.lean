import PageManifest.Proofs.Coverage

/-! # The octets that regions name

A region names the positions from its offset up to its stop.  A digest covers the octets
that the included regions name, except that a stop before the first octet is taken from
the end of the data: such a region has no octet to name, and octets are covered all the
same.
-/

namespace PageManifest

/-- The octets at the positions that are asked for; the first octet stands at `start`. -/
def octetsFrom (start : Nat) (data : Bytes) (asked : Int → Bool) : Bytes :=
  ((data.zipIdx start).filter fun entry => asked entry.2).map Prod.fst

/-- The octets of some data at the positions that are asked for. -/
def octetsAt (data : Bytes) (asked : Int → Bool) : Bytes :=
  octetsFrom 0 data asked

section Octets

variable {start : Nat} {data : Bytes} {asked asked' : Int → Bool}

theorem octetsFrom_append (start : Nat) (front back : Bytes) (asked : Int → Bool) :
    octetsFrom start (front ++ back) asked =
      octetsFrom start front asked ++ octetsFrom (start + front.length) back asked := by
  unfold octetsFrom
  rw [List.zipIdx_append, List.filter_append, List.map_append]

theorem octetsFrom_congr
    (h : ∀ i : Nat, start ≤ i → i < start + data.length → asked i = asked' i) :
    octetsFrom start data asked = octetsFrom start data asked' := by
  unfold octetsFrom
  refine congrArg _ (List.filter_congr fun entry hentry => ?_)
  exact h _ (List.le_snd_of_mem_zipIdx hentry) (List.snd_lt_add_of_mem_zipIdx hentry)

theorem octetsFrom_of_all (h : ∀ i : Nat, start ≤ i → i < start + data.length → asked i = true) :
    octetsFrom start data asked = data := by
  unfold octetsFrom
  rw [List.filter_eq_self.mpr fun entry hentry =>
    h _ (List.le_snd_of_mem_zipIdx hentry) (List.snd_lt_add_of_mem_zipIdx hentry)]
  exact List.zipIdx_map_fst start data

theorem octetsFrom_of_none
    (h : ∀ i : Nat, start ≤ i → i < start + data.length → asked i = false) :
    octetsFrom start data asked = [] := by
  unfold octetsFrom
  rw [List.filter_eq_nil_iff.mpr fun entry hentry => ?_, List.map_nil]
  rw [h _ (List.le_snd_of_mem_zipIdx hentry) (List.snd_lt_add_of_mem_zipIdx hentry)]
  exact Bool.false_ne_true

/-- Where the middle of some data is asked for, and nothing else, the middle is what is there. -/
theorem octetsAt_middle {front middle back : Bytes}
    (hfront : ∀ i : Nat, i < front.length → asked i = false)
    (hmiddle : ∀ i : Nat, front.length ≤ i → i < front.length + middle.length → asked i = true)
    (hback : ∀ i : Nat, front.length + middle.length ≤ i → asked i = false) :
    octetsAt (front ++ (middle ++ back)) asked = middle := by
  rw [octetsAt, octetsFrom_append, octetsFrom_append, Nat.zero_add,
    octetsFrom_of_none fun i _ hi => hfront i (by omega), octetsFrom_of_all hmiddle,
    octetsFrom_of_none fun i hi _ => hback i hi, List.nil_append, List.append_nil]

end Octets

/-- Between two positions stand the octets up to the second, less those up to the first. -/
theorem octetsAt_between {data : Bytes} {lo hi : Int} (hlo : 0 ≤ lo) (hhi : 0 ≤ hi)
    (h : hi ≤ data.length) :
    octetsAt data (fun i => decide (lo ≤ i ∧ i < hi)) = (data.take hi.toNat).drop lo.toNat := by
  by_cases horder : lo ≤ hi
  · have hcut : data = data.take lo.toNat ++
        ((data.take hi.toNat).drop lo.toNat ++ data.drop hi.toNat) := by
      have hfront : (data.take hi.toNat).take lo.toNat = data.take lo.toNat := by
        rw [List.take_take, Nat.min_eq_left (by omega)]
      rw [← hfront, ← List.append_assoc, List.take_append_drop, List.take_append_drop]
    have hlength : (data.take lo.toNat).length = lo.toNat := by
      rw [List.length_take]
      omega
    have hlength' : ((data.take hi.toNat).drop lo.toNat).length = hi.toNat - lo.toNat := by
      rw [List.length_drop, List.length_take]
      omega
    conv => lhs; rw [hcut]
    refine octetsAt_middle ?_ ?_ ?_
    · intro i hi'
      exact decide_eq_false (by omega)
    · intro i hi' hi''
      exact decide_eq_true (by omega)
    · intro i hi'
      exact decide_eq_false (by omega)
  · rw [octetsAt, octetsFrom_of_none fun i _ _ => decide_eq_false (by omega),
      List.drop_eq_nil_of_le (by rw [List.length_take]; omega)]

namespace Region

variable {data : Bytes} {regions : List Region} {r : Region}

/-- Whether a region names a position. -/
def holds (r : Region) (i : Int) : Bool :=
  decide (r.offset ≤ i ∧ i < r.stop)

/-- The octets at the positions that a region names. -/
def named (data : Bytes) (r : Region) : Bytes :=
  octetsAt data r.holds

/-- A region that is refused for some data. -/
def Outside (data : Bytes) (r : Region) : Prop :=
  r.offset < 0 ∨ data.length < r.stop

instance (data : Bytes) (r : Region) : Decidable (Outside data r) :=
  inferInstanceAs (Decidable (_ ∨ _))

/-- The octets that are covered for a region: a stop before 0 counts from the end of the data. -/
def covered (data : Bytes) (r : Region) : Bytes :=
  if 0 ≤ r.stop then named data r
  else octetsAt data fun i => decide (r.offset ≤ i ∧ i < data.length + r.stop)

theorem slice_eq_named (h : ¬ Outside data r) (hstop : 0 ≤ r.stop) :
    slice data r.offset r.stop = named data r := by
  obtain ⟨hoffset, hsize⟩ := not_or.mp h
  unfold named holds
  rw [octetsAt_between (Int.not_lt.mp hoffset) hstop (Int.not_lt.mp hsize)]
  simp only [slice, Int.not_lt.mp hoffset, hstop, if_true]

theorem slice_eq_covered (h : ¬ Outside data r) :
    slice data r.offset r.stop = covered data r := by
  unfold covered
  by_cases hstop : 0 ≤ r.stop
  · rw [if_pos hstop, slice_eq_named h hstop]
  · obtain ⟨hoffset, -⟩ := not_or.mp h
    rw [if_neg hstop]
    by_cases hwraps : 0 ≤ (data.length : Int) + r.stop
    · have hback : ((data.length : Int) + r.stop).toNat = data.length - (-r.stop).toNat := by
        omega
      rw [octetsAt_between (Int.not_lt.mp hoffset) hwraps (by omega), hback]
      simp only [slice, Int.not_lt.mp hoffset, hstop, if_true, if_false]
    · have hback : data.length - (-r.stop).toNat = 0 := by omega
      rw [octetsAt, octetsFrom_of_none fun i _ _ => decide_eq_false (by omega)]
      simp only [slice, hstop, if_false, hback, List.take_zero, List.drop_nil]

/-! ## What is refused, and what is covered otherwise -/

theorem ofKind_cons_of_eq {kind : RegionKind} (h : r.kind = kind) (rest : List Region) :
    ofKind kind (r :: rest) = r :: ofKind kind rest :=
  List.filter_cons_of_pos (decide_eq_true h)

theorem ofKind_cons_of_ne {kind : RegionKind} (h : r.kind ≠ kind) (rest : List Region) :
    ofKind kind (r :: rest) = ofKind kind rest :=
  List.filter_cons_of_neg fun hkind => h (of_decide_eq_true hkind)

theorem includedOctets_cons_of_eq (h : r.kind = .included) (data : Bytes) (rest : List Region) :
    includedOctets data (r :: rest) =
      if Outside data r then .error (.outside r data.length)
      else (includedOctets data rest).map (slice data r.offset r.stop ++ ·) :=
  if_pos h

/-- The first included region that is refused decides; without one all of them are covered. -/
theorem includedOctets_eq (data : Bytes) (regions : List Region) :
    includedOctets data regions =
      match (ofKind .included regions).find? fun r => decide (Outside data r) with
      | some r => .error (.outside r data.length)
      | none => .ok ((ofKind .included regions).flatMap (covered data)) := by
  induction regions with
  | nil => rfl
  | cons r rest ih =>
      by_cases hkind : r.kind = .included
      · rw [includedOctets_cons_of_eq hkind, ofKind_cons_of_eq hkind, List.find?_cons]
        by_cases hout : Outside data r
        · rw [if_pos hout, decide_eq_true hout]
        · rw [if_neg hout, decide_eq_false hout, ih, slice_eq_covered hout, List.flatMap_cons]
          cases (ofKind .included rest).find? fun r => decide (Outside data r) <;> rfl
      · rw [includedOctets, if_neg hkind, ofKind_cons_of_ne hkind, ih]

theorem includedOctets_of_inside (h : ∀ r ∈ ofKind .included regions, ¬ Outside data r) :
    includedOctets data regions = .ok ((ofKind .included regions).flatMap (covered data)) := by
  have hnone : (ofKind .included regions).find? (fun r => decide (Outside data r)) = none :=
    List.find?_eq_none.mpr fun r hr hout => h r hr (of_decide_eq_true hout)
  rw [includedOctets_eq, hnone]

theorem exists_error_iff : (∃ fault, includedOctets data regions = .error fault) ↔
    ∃ r ∈ ofKind .included regions, Outside data r := by
  rw [includedOctets_eq]
  cases hfind : (ofKind .included regions).find? fun r => decide (Outside data r) with
  | some r =>
      have hr := List.find?_some hfind
      exact ⟨fun _ => ⟨r, List.mem_of_find?_eq_some hfind, of_decide_eq_true hr⟩,
        fun _ => ⟨_, rfl⟩⟩
  | none =>
      constructor
      · rintro ⟨fault, hfault⟩
        cases hfault
      · rintro ⟨r, hr, hout⟩
        exact absurd (decide_eq_true hout) (List.find?_eq_none.mp hfind r hr)

/-- A region that names positions of some data only, and does not end before the first one. -/
def Fits (data : Bytes) (r : Region) : Prop :=
  0 ≤ r.stop ∧ (r.stop ≤ r.offset ∨ 0 ≤ r.offset ∧ r.stop ≤ data.length)

instance (data : Bytes) (r : Region) : Decidable (Fits data r) :=
  inferInstanceAs (Decidable (_ ∧ _))

theorem fits_iff : Fits data r ↔
    ¬ ((∃ i, r.holds i = true ∧ ¬ (0 ≤ i ∧ i < data.length)) ∨ r.stop < 0) := by
  unfold Fits holds
  constructor
  · rintro ⟨hstop, hspan⟩ (⟨i, hi, hout⟩ | hneg)
    · have hbounds := of_decide_eq_true hi
      omega
    · omega
  · intro h
    obtain ⟨hspan, hstop⟩ := not_or.mp h
    refine ⟨by omega, ?_⟩
    by_cases hempty : r.stop ≤ r.offset
    · exact .inl hempty
    · -- The first and the last position that it names are those of octets.
      have hall : ∀ i, r.offset ≤ i ∧ i < r.stop → 0 ≤ i ∧ i < data.length := fun i hi =>
        Classical.not_not.mp fun hout => hspan ⟨i, decide_eq_true hi, hout⟩
      have hfirst := hall r.offset (by omega)
      have hlast := hall (r.stop - 1) (by omega)
      omega

theorem includedOctets_of_fits (h : ∀ r ∈ ofKind .included regions, 0 ≤ r.stop)
    (hin : ∀ r ∈ ofKind .included regions, ¬ Outside data r) :
    includedOctets data regions = .ok ((ofKind .included regions).flatMap (named data)) := by
  have hsame : ∀ r ∈ ofKind .included regions, covered data r = named data r :=
    fun r hr => if_pos (h r hr)
  rw [includedOctets_of_inside hin, List.flatMap_def, List.flatMap_def, List.map_congr_left hsame]

section Named

variable [Platform] {name : String} {method : Digest.Method}

theorem digestIncluded_of_method? (h : Digest.method? name = some method) (data : Bytes)
    (regions : List Region) :
    digestIncluded data regions name = (includedOctets data regions).bind (digestBy method) := by
  unfold digestIncluded
  rw [h]
  cases includedOctets data regions <;> rfl

/-- A digest that is refused since a value does not fit. -/
def Refused (data : Bytes) (regions : List Region) (name : String) : Prop :=
  ∃ fault, digestIncluded data regions name = .error fault ∧ fault.category = .value

/--
A digest goes by the positions that its regions name: it is refused, or else it is that of
the octets there, one included region after the other; and if a region, whatever its kind,
names a position where there is no octet, or ends before the first one, it is refused.
-/
structure GoesByNames (data : Bytes) (regions : List Region) (name : String) : Prop where
  outcome : Refused data regions name ∨
    ∃ sum, Digest.method? name = some (.fixed sum) ∧ digestIncluded data regions name =
      .ok (Digest.hex (sum ((ofKind .included regions).flatMap (named data))))
  refused : ∀ r ∈ regions,
    (∃ i, r.holds i = true ∧ ¬ (0 ≤ i ∧ i < data.length)) ∨ r.stop < 0 →
      Refused data regions name

theorem refused_iff (h : Digest.method? name = some method) : Refused data regions name ↔
    ∃ r ∈ ofKind .included regions, Outside data r := by
  rw [Refused, digestIncluded_of_method? h, includedOctets_eq]
  cases hfind : (ofKind .included regions).find? fun r => decide (Outside data r) with
  | some r =>
      have hr := List.find?_some hfind
      exact ⟨fun _ => ⟨r, List.mem_of_find?_eq_some hfind, of_decide_eq_true hr⟩,
        fun _ => ⟨_, rfl, rfl⟩⟩
  | none =>
      constructor
      · rintro ⟨fault, hfault, hcategory⟩
        -- A missing length is no fault of a value.
        cases method with
        | fixed sum => cases hfault
        | extendable =>
            cases hfault
            cases hcategory
      · rintro ⟨r, hr, hout⟩
        exact absurd (decide_eq_true hout) (List.find?_eq_none.mp hfind r hr)

theorem goesByNames_iff (h : Digest.method? name = some method) :
    GoesByNames data regions name ↔
      (∃ r ∈ ofKind .included regions, Outside data r) ∨
        (∃ sum, method = .fixed sum) ∧ ∀ r ∈ regions, Fits data r := by
  by_cases hout : ∃ r ∈ ofKind .included regions, Outside data r
  · have hrefused := (refused_iff h).mpr hout
    exact ⟨fun _ => .inl hout, fun _ => ⟨.inl hrefused, fun _ _ _ => hrefused⟩⟩
  · have haccepted : ¬ Refused data regions name := fun hrefused =>
      hout ((refused_iff h).mp hrefused)
    constructor
    · intro hgoes
      refine .inr ⟨?_, fun r hr => fits_iff.mpr fun hr' => haccepted (hgoes.refused r hr hr')⟩
      obtain ⟨sum, hsum, -⟩ := hgoes.outcome.resolve_left haccepted
      exact ⟨sum, Option.some.inj (h.symm.trans hsum)⟩
    · rintro (hout' | ⟨⟨sum, rfl⟩, hfits⟩)
      · exact absurd hout' hout
      · refine ⟨.inr ⟨sum, h, ?_⟩, fun r hr hr' => absurd hr' (fits_iff.mp (hfits r hr))⟩
        have hincluded : ∀ r ∈ ofKind .included regions, 0 ≤ r.stop := fun r hr =>
          (hfits r (List.mem_filter.mp hr).1).1
        rw [digestIncluded_of_method? h,
          includedOctets_of_fits hincluded fun r hr hout' => hout ⟨r, hr, hout'⟩]
        rfl

/--
A digest is refused for an included region that begins before the data or ends behind it.
Otherwise it is that of the octets that the included regions name, but for a region that
ends before the data: there it covers the octets up to that many from the end.  Excluded
regions are not looked at, and an algorithm that asks for a length never gets one.  So it
goes by the names exactly when it is refused, or when all regions fit the data and the
algorithm makes digests of a fixed length.
-/
theorem digest_goes_by_names_iff (data : Bytes) (regions : List Region)
    (h : Digest.method? name = some method) :
    digestIncluded data regions name = (includedOctets data regions).bind (digestBy method) ∧
    ((∃ fault, includedOctets data regions = .error fault) ↔
      ∃ r ∈ ofKind .included regions, r.offset < 0 ∨ data.length < r.stop) ∧
    ((∀ r ∈ ofKind .included regions, 0 ≤ r.offset ∧ r.stop ≤ data.length) →
      includedOctets data regions = .ok ((ofKind .included regions).flatMap (covered data))) ∧
    (GoesByNames data regions name ↔
      (∃ r ∈ ofKind .included regions, r.offset < 0 ∨ data.length < r.stop) ∨
        (∃ sum, method = .fixed sum) ∧ ∀ r ∈ regions,
          0 ≤ r.stop ∧ (r.stop ≤ r.offset ∨ 0 ≤ r.offset ∧ r.stop ≤ data.length)) := by
  refine ⟨digestIncluded_of_method? h data regions, exists_error_iff, fun hin => ?_,
    goesByNames_iff h⟩
  refine includedOctets_of_inside fun r hr hout => ?_
  have hbounds := hin r hr
  unfold Outside at hout
  omega

end Named

section Bundled

attribute [local instance] Platform.bundled

-- The excluded region names no position, and neither does the last one.
theorem digest_goes_by_names_letters :
    Digest.method? "sha256" = some (.fixed Digest.Sha256.sum256) ∧
      GoesByNames [0x41, 0x42, 0x43]
        [⟨0, 1, .included⟩, ⟨7, 0, .excluded⟩, ⟨2, -2, .included⟩] "sha256" := by
  have hname : Digest.method? "sha256" = some (.fixed Digest.Sha256.sum256) := rfl
  exact ⟨hname,
    (digest_goes_by_names_iff _ _ hname).2.2.2.mpr (.inr ⟨⟨_, rfl⟩, by decide⟩)⟩

/-- A region that ends before the data names no octet, and yet most of the octets are covered. -/
theorem digest_covers_unnamed :
    named [0x41, 0x42, 0x43, 0x44, 0x45, 0x46] ⟨1, -2, .included⟩ = [] ∧
    digestIncluded [0x41, 0x42, 0x43, 0x44, 0x45, 0x46] [⟨1, -2, .included⟩] "sha256" =
      .ok (Digest.Algorithm.sha256.hexSum [0x42, 0x43, 0x44, 0x45]) ∧
    ¬ GoesByNames [0x41, 0x42, 0x43, 0x44, 0x45, 0x46] [⟨1, -2, .included⟩] "sha256" := by
  refine ⟨rfl, rfl, fun h => ?_⟩
  obtain ⟨fault, hfault, -⟩ := h.refused _ (List.mem_singleton_self _) (.inr (by decide))
  cases hfault

end Bundled

end Region

end PageManifest
