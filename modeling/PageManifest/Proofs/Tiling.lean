import Mathlib.Data.List.Chain
import PageManifest.Proofs.Spans

/-! # Regions that tile a document

A check accepts just those regions that follow one another from the first octet to the
last.  Every position then lies in one region and in no other, so a digest covers all
octets but the excluded ones, and the regions can be put together again in the order of
their offsets.
-/

namespace PageManifest

namespace Region

/-- Regions that follow one another from `start` up to `total`. -/
structure Tiles (start total : Int) (regions : List Region) : Prop where
  lengths : ∀ r ∈ regions, 0 ≤ r.length
  first : ∀ r ∈ regions.head?, r.offset = start
  next : regions.IsChain fun r s => s.offset = r.stop
  last : ∀ r ∈ regions.getLast?, r.stop = total
  empty : regions = [] → total = start

section Tiles

variable {start total : Int} {r : Region} {rest regions : List Region}

theorem tiles_nil_iff : Tiles start total [] ↔ total = start := by
  refine ⟨fun h => h.empty rfl, fun h => ⟨?_, ?_, .nil, ?_, fun _ => h⟩⟩ <;> simp

theorem tiles_cons_iff : Tiles start total (r :: rest) ↔
    0 ≤ r.length ∧ r.offset = start ∧ Tiles r.stop total rest := by
  constructor
  · intro h
    obtain ⟨hfirst, hnext⟩ := List.isChain_cons.mp h.next
    refine ⟨h.lengths r List.mem_cons_self, h.first r rfl,
      fun s hs => h.lengths s (List.mem_cons_of_mem r hs), hfirst, hnext, ?_, ?_⟩
    · intro s hs
      have hlast := h.last
      rw [List.getLast?_cons, hs] at hlast
      exact hlast s rfl
    · rintro rfl
      exact (h.last r rfl).symm
  · rintro ⟨hlength, hoffset, h⟩
    refine ⟨?_, ?_, List.isChain_cons.mpr ⟨h.first, h.next⟩, ?_, nofun⟩
    · rintro s (_ | ⟨_, hs⟩)
      · exact hlength
      · exact h.lengths s hs
    · rintro s ⟨⟩
      exact hoffset
    · intro s hs
      rw [List.getLast?_cons] at hs
      cases hrest : rest.getLast? with
      | none =>
          rw [hrest] at hs
          cases hs
          exact (h.empty (List.getLast?_eq_none_iff.mp hrest)).symm
      | some t =>
          rw [hrest] at hs
          cases hs
          exact h.last t hrest

theorem checkFrom_eq_ok_iff (start total : Int) (regions : List Region) :
    checkFrom start total regions = .ok () ↔ Tiles start total regions := by
  induction regions generalizing start with
  | nil =>
      rw [tiles_nil_iff, checkFrom, eq_comm]
      by_cases h : total = start <;> simp [h, Ne.symm]
  | cons r rest ih =>
      rw [tiles_cons_iff, ← ih, checkFrom]
      by_cases hlength : r.length < 0
      · simp [hlength, Int.not_le.mpr hlength]
      · rw [if_neg hlength]
        by_cases hgap : start < r.offset
        · simp [hgap, Int.ne_of_gt hgap]
        · rw [if_neg hgap]
          by_cases hover : r.offset < start
          · simp [hover, Int.ne_of_lt hover]
          · have hoffset : r.offset = start := by omega
            simp [hoffset, Int.not_lt.mp hlength]

namespace Tiles

theorem le (h : Tiles start total regions) : start ≤ total := by
  induction regions generalizing start with
  | nil => exact Int.le_of_eq (tiles_nil_iff.mp h).symm
  | cons r rest ih =>
      obtain ⟨hlength, hoffset, hrest⟩ := tiles_cons_iff.mp h
      have hle := ih hrest
      unfold stop at hle
      omega

theorem bounds (h : Tiles start total regions) :
    ∀ r ∈ regions, start ≤ r.offset ∧ r.offset ≤ r.stop ∧ r.stop ≤ total := by
  induction regions generalizing start with
  | nil => nofun
  | cons r rest ih =>
      obtain ⟨hlength, hoffset, hrest⟩ := tiles_cons_iff.mp h
      have hle := hrest.le
      have hstop : r.stop = r.offset + r.length := rfl
      rintro s (_ | ⟨_, hs⟩)
      · omega
      · have hs := ih hrest s hs
        omega

/-- Every region ends before the next ones begin. -/
theorem pairwise (h : Tiles start total regions) :
    regions.Pairwise fun r s => r.stop ≤ s.offset := by
  induction regions generalizing start with
  | nil => exact .nil
  | cons r rest ih =>
      obtain ⟨-, -, hrest⟩ := tiles_cons_iff.mp h
      exact .cons (fun s hs => (hrest.bounds s hs).1) (ih hrest)

/-- Every position between the ends lies in one region, and no other position in any. -/
theorem countP_holds (h : Tiles start total regions) (i : Int) :
    regions.countP (·.holds i) = if start ≤ i ∧ i < total then 1 else 0 := by
  induction regions generalizing start with
  | nil =>
      have hends := tiles_nil_iff.mp h
      rw [if_neg (by omega), List.countP_nil]
  | cons r rest ih =>
      obtain ⟨hlength, hoffset, hrest⟩ := tiles_cons_iff.mp h
      have hle := hrest.le
      have hstop : r.stop = r.offset + r.length := rfl
      rw [List.countP_cons, ih hrest]
      simp only [holds, decide_eq_true_eq]
      split <;> split <;> split <;> omega

end Tiles

end Tiles

/-! ## What tiles cover -/

section Cover

variable {start : Int} {data : Bytes} {r : Region} {regions : List Region}

/-- The octets of a region, as they are cut out of some data. -/
def cut (data : Bytes) (r : Region) : Bytes :=
  slice data r.offset r.stop

theorem cut_eq (hoffset : 0 ≤ r.offset) (hstop : 0 ≤ r.stop) (data : Bytes) :
    cut data r = (data.take r.stop.toNat).drop r.offset.toNat := by
  simp only [cut, slice, hoffset, hstop, if_true]

theorem cut_append_drop (hoffset : 0 ≤ r.offset) (hstop : r.offset ≤ r.stop) (data : Bytes) :
    cut data r ++ data.drop r.stop.toNat = data.drop r.offset.toNat := by
  have hlength : r.offset.toNat + (r.stop.toNat - r.offset.toNat) = r.stop.toNat := by omega
  rw [cut_eq hoffset (by omega), List.drop_take, ← hlength, ← List.drop_drop,
    Nat.add_sub_cancel_left, List.take_append_drop]

theorem length_cut (hoffset : 0 ≤ r.offset) (hstop : r.stop ≤ data.length)
    (hle : r.offset ≤ r.stop) : r.offset.toNat + (cut data r).length = r.stop.toNat := by
  rw [cut_eq hoffset (by omega), List.length_drop, List.length_take]
  omega

/-- The regions put one after the other give back the data from where they start. -/
theorem Tiles.flatMap_cut (h : Tiles start data.length regions) (hstart : 0 ≤ start) :
    regions.flatMap (cut data) = data.drop start.toNat := by
  induction regions generalizing start with
  | nil =>
      have hends := tiles_nil_iff.mp h
      rw [List.flatMap_nil, List.drop_eq_nil_of_le (by omega)]
  | cons r rest ih =>
      obtain ⟨-, hoffset, hrest⟩ := tiles_cons_iff.mp h
      have hbounds := h.bounds r List.mem_cons_self
      rw [List.flatMap_cons, ih hrest (by omega), cut_append_drop (by omega) (by omega), hoffset]

/-- Whether no excluded region names a position. -/
def spared (regions : List Region) (i : Int) : Bool :=
  (ofKind .excluded regions).all fun r => !r.holds i

/-- The included regions cover the octets that no excluded region names. -/
theorem Tiles.included_flatMap_cut (h : Tiles start data.length regions) (hstart : 0 ≤ start) :
    (ofKind .included regions).flatMap (cut data) =
      octetsFrom start.toNat (data.drop start.toNat) (spared regions) := by
  induction regions generalizing start with
  | nil =>
      have hends := tiles_nil_iff.mp h
      rw [List.drop_eq_nil_of_le (by omega)]
      rfl
  | cons r rest ih =>
      obtain ⟨-, hoffset, hrest⟩ := tiles_cons_iff.mp h
      have hbounds := h.bounds r List.mem_cons_self
      have hlength : r.offset.toNat + (cut data r).length = r.stop.toNat :=
        length_cut (by omega) (by omega) (by omega)
      have hback : octetsFrom r.stop.toNat (data.drop r.stop.toNat) (spared (r :: rest)) =
          octetsFrom r.stop.toNat (data.drop r.stop.toNat) (spared rest) := by
        refine octetsFrom_congr fun i hi _ => ?_
        by_cases hkind : r.kind = .excluded
        · have hout : r.holds i = false := decide_eq_false (by omega)
          simp only [spared, ofKind_cons_of_eq hkind, List.all_cons, hout, Bool.not_false,
            Bool.true_and]
        · rw [spared, spared, ofKind_cons_of_ne hkind]
      rw [← hoffset, ← cut_append_drop (by omega) (by omega) data, octetsFrom_append, hlength,
        hback, ← ih hrest (by omega)]
      cases hkind : r.kind with
      | included =>
          rw [ofKind_cons_of_eq hkind, List.flatMap_cons, octetsFrom_of_all fun i hi hi' => ?_]
          rw [spared, ofKind_cons_of_ne (by rw [hkind]; nofun)]
          refine List.all_eq_true.mpr fun s hs => ?_
          have hs := hrest.bounds s (List.mem_of_mem_filter hs)
          have hout : s.holds i = false := decide_eq_false (by omega)
          rw [hout]
          rfl
      | excluded =>
          rw [ofKind_cons_of_ne (by rw [hkind]; nofun), octetsFrom_of_none fun i hi hi' => ?_,
            List.nil_append]
          have hin : r.holds i = true := decide_eq_true (by omega)
          rw [spared, ofKind_cons_of_eq hkind, List.all_cons, hin]
          rfl

theorem cut_of_empty (hoffset : 0 ≤ r.offset) (h : r.stop = r.offset) (data : Bytes) :
    cut data r = [] := by
  rw [cut_eq hoffset (by omega), h]
  exact List.drop_eq_nil_of_le (List.length_take_le _ _)

/-- Regions without octets add nothing. -/
theorem flatMap_cut_filter {l : List Region}
    (h : ∀ r ∈ l, 0 ≤ r.offset ∧ r.offset ≤ r.stop) :
    (l.filter fun r => decide (r.offset < r.stop)).flatMap (cut data) = l.flatMap (cut data) := by
  induction l with
  | nil => rfl
  | cons r l ih =>
      obtain ⟨hoffset, hle⟩ := h r List.mem_cons_self
      have ih := ih fun s hs => h s (List.mem_cons_of_mem r hs)
      rw [List.filter_cons, List.flatMap_cons]
      by_cases hlt : r.offset < r.stop
      · rw [decide_eq_true hlt, if_pos rfl, List.flatMap_cons, ih]
      · rw [decide_eq_false hlt, if_neg Bool.false_ne_true, ih,
          cut_of_empty hoffset (by omega) data, List.nil_append]

/-- In whatever order regions come that begin at the same octet, the data is put together again. -/
theorem Tiles.flatMap_cut_of_perm (h : Tiles 0 data.length regions) {l : List Region}
    (hperm : l.Perm regions) (hsorted : l.Pairwise fun r s => r.offset ≤ s.offset) :
    l.flatMap (cut data) = data := by
  have hinside : ∀ r ∈ regions, 0 ≤ r.offset ∧ r.offset ≤ r.stop :=
    fun r hr => ⟨(h.bounds r hr).1, (h.bounds r hr).2.1⟩
  let long := fun r : Region => decide (r.offset < r.stop)
  have hsame : l.filter long = regions.filter long := by
    have hpairs : (regions.filter long).Pairwise fun r s => r.offset < s.offset := by
      refine (h.pairwise.filter long).imp_of_mem fun hr _ hrs => ?_
      have hlong := of_decide_eq_true (List.mem_filter.mp hr).2
      omega
    -- Two regions with octets in them do not begin at the same one.
    have hapart : (regions.filter long).Pairwise fun r s => r.offset ≠ s.offset :=
      hpairs.imp Int.ne_of_lt
    refine (hperm.filter long).eq_of_pairwise ?_ (hsorted.filter long) (hpairs.imp Int.le_of_lt)
    intro r s hr hs hle hge
    by_contra hne
    have hsymm : Std.Symm fun r s : Region => r.offset ≠ s.offset := ⟨fun _ _ => Ne.symm⟩
    exact hapart.forall ((hperm.filter long).mem_iff.mp hr) hs hne (Int.le_antisymm hle hge)
  rw [← flatMap_cut_filter fun r hr => hinside r (hperm.mem_iff.mp hr), hsame,
    flatMap_cut_filter hinside, h.flatMap_cut (Int.le_refl 0)]
  rfl

theorem Tiles.includedOctets_eq (h : Tiles 0 data.length regions) :
    includedOctets data regions = .ok (octetsAt data (spared regions)) := by
  have hinside : ∀ r ∈ ofKind .included regions, ¬ Outside data r := by
    intro r hr hout
    have hbounds := h.bounds r (List.mem_of_mem_filter hr)
    unfold Outside at hout
    omega
  have hcut : ∀ r ∈ ofKind .included regions, covered data r = cut data r :=
    fun r hr => (slice_eq_covered (hinside r hr)).symm
  rw [includedOctets_of_inside hinside, List.flatMap_def, List.map_congr_left hcut,
    ← List.flatMap_def, h.included_flatMap_cut (Int.le_refl 0)]
  rfl

theorem perm_ofKind (regions : List Region) :
    regions.Perm (ofKind .included regions ++ ofKind .excluded regions) := by
  have hkinds : ∀ r ∈ regions, (!decide (r.kind = .included)) = decide (r.kind = .excluded) := by
    intro r _
    cases r.kind <;> rfl
  have hperm := List.filter_append_perm (fun r : Region => decide (r.kind = .included)) regions
  rw [List.filter_congr hkinds] at hperm
  exact hperm.symm

end Cover

section MakeUp

variable [Platform]

/--
Some regions cover some data: a digest by an algorithm of a fixed length is that of just
the octets that no excluded region names, and the included and the excluded regions, put
one after the other in any order that their offsets admit, give back the data.  No digest
comes of an algorithm that asks for a length.
-/
structure MakeUp (data : Bytes) (regions : List Region) : Prop where
  digest : ∀ {name : String} {sum : Bytes → Bytes},
    Digest.method? name = some (.fixed sum) →
      digestIncluded data regions name = .ok (Digest.hex (sum (octetsAt data (spared regions))))
  lengthless : ∀ {name : String}, Digest.method? name = some .extendable →
    digestIncluded data regions name = .error .noLength
  parts : regions.Perm (ofKind .included regions ++ ofKind .excluded regions)
  sorted : regions.Pairwise fun r s => r.offset ≤ s.offset
  together : ∀ l : List Region, l.Perm (ofKind .included regions ++ ofKind .excluded regions) →
    l.Pairwise (fun r s => r.offset ≤ s.offset) →
      l.flatMap (fun r => slice data r.offset r.stop) = data

theorem Tiles.digestIncluded_eq {data : Bytes} {regions : List Region} {name : String}
    {method : Digest.Method} (h : Tiles 0 data.length regions)
    (hname : Digest.method? name = some method) :
    digestIncluded data regions name = digestBy method (octetsAt data (spared regions)) := by
  rw [digestIncluded_of_method? hname, h.includedOctets_eq]
  rfl

theorem Tiles.makeUp {data : Bytes} {regions : List Region} (h : Tiles 0 data.length regions) :
    MakeUp data regions := by
  refine ⟨h.digestIncluded_eq, h.digestIncluded_eq, perm_ofKind regions, ?_,
    fun l hperm hsorted => ?_⟩
  · refine h.pairwise.imp_of_mem fun hr _ hrs => ?_
    have hbounds := h.bounds _ hr
    omega
  · exact h.flatMap_cut_of_perm (hperm.trans (perm_ofKind regions).symm) hsorted

/--
A check accepts just the regions that tile a document.  Then every position of the
document lies in exactly one region and no other position in any, the regions make up
the document, and among the known algorithms those of a fixed length have a digest of it.
-/
theorem checkPartition_decides_tiling (regions : List Region) (total : Int) :
    (checkPartition regions total = .ok () ↔ Tiles 0 total regions) ∧
    (checkPartition regions total = .ok () →
      (∀ i, regions.countP (·.holds i) = if 0 ≤ i ∧ i < total then 1 else 0) ∧
      ∀ data : Bytes, total = data.length → MakeUp data regions ∧
        ∀ name, (∃ digest, digestIncluded data regions name = .ok digest) ↔
          ∃ sum, Digest.method? name = some (.fixed sum)) := by
  refine ⟨checkFrom_eq_ok_iff 0 total regions, fun haccepted => ?_⟩
  have htiles := (checkFrom_eq_ok_iff 0 total regions).mp haccepted
  refine ⟨htiles.countP_holds, fun data htotal => ?_⟩
  rw [htotal] at htiles
  refine ⟨htiles.makeUp, fun name => ⟨?_, fun ⟨_, hsum⟩ => ⟨_, htiles.makeUp.digest hsum⟩⟩⟩
  rintro ⟨digest, hdigest⟩
  cases hname : Digest.method? name with
  | none =>
      rw [digestIncluded, hname] at hdigest
      cases hdigest
  | some method =>
      cases method with
      | fixed sum => exact ⟨sum, rfl⟩
      | extendable =>
          rw [htiles.makeUp.lengthless hname] at hdigest
          cases hdigest

end MakeUp

attribute [local instance] Platform.bundled in
/-- The regions of one octet are accepted, and yet a known algorithm makes no digest of it. -/
theorem partition_without_digest :
    checkPartition [⟨0, 1, .included⟩] 1 = .ok () ∧
    (∃ method, Digest.method? "shake_128" = some method) ∧
    digestIncluded [0x61] [⟨0, 1, .included⟩] "shake_128" = .error .noLength :=
  ⟨rfl, ⟨_, rfl⟩, rfl⟩

-- A region without octets stands between two that begin and end where it does.
example : checkPartition [⟨0, 2, .included⟩, ⟨2, 0, .excluded⟩, ⟨2, 3, .excluded⟩] 5 = .ok () :=
  rfl

end Region

end PageManifest
