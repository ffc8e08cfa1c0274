import Mathlib.Data.List.Chain
import PageManifest.Diff.Hunk

/-!
# The shape of edit scripts

Two equal sequences have their longest common run at the same place in both: a run
that ends at two places is no longer than the one that ends at the earlier of them
in both sequences, and that one is met first.  So the run takes in everything, and
the script shows no change.

In any script what goes stands in front of what comes, and an item that stays lies
between two changes.
-/

namespace PageManifest.Diff

variable {α : Type}

/-- The edits of a script. -/
def edits (script : List (Segment α)) : List (Edit α) :=
  script.flatMap Edit.ofSegment

section

variable {frequent : α → Bool} {items : List α}

/-- How many items in a row, back from place `k`, are not frequent. -/
def stretch (frequent : α → Bool) (items : List α) (k : Nat) : Nat :=
  ((items.take k).reverse.takeWhile (!frequent ·)).length

theorem stretch_zero : stretch frequent items 0 = 0 := by
  simp [stretch]

theorem stretch_succ {k : Nat} (h : k < items.length) :
    stretch frequent items (k + 1) =
      if frequent items[k] then 0 else stretch frequent items k + 1 := by
  rw [stretch, List.take_succ_eq_append_getElem h, List.reverse_append, List.reverse_singleton,
    List.singleton_append, List.takeWhile_cons]
  cases frequent items[k] <;> rfl

end

section

variable {frequent : α → Bool} {items : List α} {a : Nat} {row : List Nat}

/-- What the lengths of the common runs of a sequence with itself keep to in row `a`. -/
structure SelfRow (frequent : α → Bool) (items : List α) (a : Nat) (row : List Nat) : Prop where
  length_eq : row.length = items.length
  le : ∀ j (h : j < row.length),
    row[j] ≤ stretch frequent items a ∧ row[j] ≤ stretch frequent items (j + 1)
  diagonal : ∀ j (h : j < row.length), j + 1 = a → row[j] = stretch frequent items a

theorem SelfRow.start : SelfRow frequent items 0 (List.replicate items.length 0) where
  length_eq := by simp
  le := by simp
  diagonal := by simp

/-- The row in front of an entry keeps to the place in front of it. -/
theorem SelfRow.shifted (h : SelfRow frequent items a row) {j : Nat} (hj : j < (0 :: row).length) :
    (0 :: row)[j] ≤ stretch frequent items a ∧ (0 :: row)[j] ≤ stretch frequent items j ∧
      (j = a → (0 :: row)[j] = stretch frequent items a) := by
  cases j with
  | zero =>
      refine ⟨Nat.zero_le _, Nat.zero_le _, ?_⟩
      rintro rfl
      exact stretch_zero.symm
  | succ j =>
      have hj : j < row.length := by simpa using hj
      exact ⟨(h.le j hj).1, (h.le j hj).2, h.diagonal j hj⟩

theorem SelfRow.next [DecidableEq α] (h : SelfRow frequent items a row) (ha : a < items.length) :
    SelfRow frequent items (a + 1) (runsEndingAt frequent items[a] row items) := by
  by_cases hf : frequent items[a] = true
  · have hrow : runsEndingAt frequent items[a] row items = List.replicate items.length 0 := by
      rw [runsEndingAt, if_pos hf]
    have hzero : stretch frequent items (a + 1) = 0 := by
      rw [stretch_succ ha, if_pos hf]
    rw [hrow]
    exact ⟨by simp, by simp, by simp [hzero]⟩
  · have hstretch : stretch frequent items (a + 1) = stretch frequent items a + 1 := by
      rw [stretch_succ ha, if_neg hf]
    have hlen : (runsEndingAt frequent items[a] row items).length = items.length := by
      rw [runsEndingAt, if_neg hf, List.length_zipWith, List.length_cons, h.length_eq]
      omega
    have hentry : ∀ j (hj : j < (runsEndingAt frequent items[a] row items).length)
        (hj' : j < items.length) (hfront : j < (0 :: row).length),
        (runsEndingAt frequent items[a] row items)[j] =
          if items[a] = items[j] then (0 :: row)[j] + 1 else 0 := by
      intro j hj hj' hfront
      simp only [runsEndingAt, if_neg hf, List.getElem_zipWith]
    refine ⟨hlen, ?_, ?_⟩
    · intro j hj
      have hj' : j < items.length := by omega
      have hfront : j < (0 :: row).length := by
        rw [List.length_cons, h.length_eq]
        omega
      rw [hentry j hj hj' hfront]
      split
      · rename_i heq
        have hsucc : stretch frequent items (j + 1) = stretch frequent items j + 1 := by
          rw [stretch_succ hj', ← heq, if_neg hf]
        have hle := h.shifted hfront
        omega
      · exact ⟨Nat.zero_le _, Nat.zero_le _⟩
    · intro j hj hja
      obtain rfl : j = a := by omega
      have hfront : j < (0 :: row).length := by
        rw [List.length_cons, h.length_eq]
        omega
      rw [hentry j hj ha hfront, if_pos rfl, (h.shifted hfront).2.2 rfl, hstretch]

theorem better_of_le {best : Anchor} {i j : Nat} (h : ∀ size ∈ row, size ≤ best.size) :
    better best i j row = best := by
  induction row generalizing j with
  | nil => rfl
  | cons size row ih =>
      have hsize : ¬best.size < size := by simpa using h size (by simp)
      rw [better, if_neg hsize]
      exact ih fun s hs => h s (List.mem_cons_of_mem _ hs)

theorem better_append {best : Anchor} {i j : Nat} {sizes : List Nat} :
    better best i j (sizes ++ row) = better (better best i j sizes) i (j + sizes.length) row := by
  induction sizes generalizing best j with
  | nil => rfl
  | cons size sizes ih =>
      rw [List.cons_append, better, better, ih, List.length_cons, Nat.add_right_comm,
        Nat.add_assoc]

/-- A run on the diagonal that is no shorter than the stretches up to a place. -/
structure Anchor.Diagonal (best : Anchor) (frequent : α → Bool) (items : List α) (a : Nat) :
    Prop where
  old_eq_new : best.old = best.new
  le : ∀ k ≤ a, stretch frequent items k ≤ best.size

theorem SelfRow.diagonal_better {best : Anchor} (h : SelfRow frequent items (a + 1) row)
    (ha : a < items.length) (hbest : best.Diagonal frequent items a) :
    (better best a 0 row).Diagonal frequent items (a + 1) := by
  have hlen : a < row.length := by rw [h.length_eq]; exact ha
  have hat : row[a] = stretch frequent items (a + 1) := h.diagonal a hlen rfl
  have hrow : row = row.take a ++ row[a] :: row.drop (a + 1) := by simp
  -- what ends in front of the diagonal is no longer than what ends on it there
  have hfront : ∀ size ∈ row.take a, size ≤ best.size := by
    intro size hsize
    obtain ⟨j, hj, rfl⟩ := List.mem_iff_getElem.mp hsize
    rw [List.getElem_take]
    exact (h.le j (by simp at hj; omega)).2.trans (hbest.le (j + 1) (by simp at hj; omega))
  have hback : ∀ size ∈ row.drop (a + 1), size ≤ stretch frequent items (a + 1) := by
    intro size hsize
    obtain ⟨j, hj, rfl⟩ := List.mem_iff_getElem.mp hsize
    rw [List.getElem_drop]
    exact (h.le (a + 1 + j) _).1
  have htake : 0 + (row.take a).length = a := by simp; omega
  rw [hrow, better_append, better_of_le hfront, htake, better, hat]
  split
  · rw [better_of_le hback]
    refine ⟨rfl, fun k hk => ?_⟩
    rcases Nat.lt_or_eq_of_le hk with hk | rfl
    · have := hbest.le k (by omega)
      simp only
      omega
    · exact Nat.le_refl _
  · rename_i hsize
    have hsize : stretch frequent items (a + 1) ≤ best.size := by omega
    rw [better_of_le fun size hs => (hback size hs).trans hsize]
    refine ⟨hbest.old_eq_new, fun k hk => ?_⟩
    rcases Nat.lt_or_eq_of_le hk with hk | rfl
    · exact hbest.le k (by omega)
    · exact hsize

variable [DecidableEq α]

/-- The longest run that a sequence has in common with itself is at one place in both. -/
theorem SelfRow.diagonal_longestRun {best : Anchor} {old : List α}
    (h : SelfRow frequent items a row) (hbest : best.Diagonal frequent items a)
    (hold : items.drop a = old) :
    (longestRun frequent items best row a old).old =
      (longestRun frequent items best row a old).new := by
  induction old generalizing a row best with
  | nil => exact hbest.old_eq_new
  | cons x old ih =>
      have ha : a < items.length := by
        by_contra ha
        rw [List.drop_eq_nil_of_le (by omega)] at hold
        cases hold
      rw [List.drop_eq_getElem_cons ha] at hold
      obtain ⟨rfl, htail⟩ := List.cons.inj hold
      have hrow := h.next ha
      rw [longestRun]
      exact ih hrow (hrow.diagonal_better ha hbest) htail

theorem strip_self (items : List α) : strip items items = ⟨items, [], []⟩ := by
  induction items with
  | nil => rfl
  | cons x items ih => rw [strip, if_pos rfl, ih]

theorem splitAtRun_self (frequent : α → Bool) (items : List α) :
    splitAtRun frequent items items = ⟨[], [], items, [], []⟩ := by
  have hstart : SelfRow frequent items 0 (List.replicate items.length 0) := .start
  have hbest : Anchor.Diagonal ⟨0, 0, 0⟩ frequent items 0 := ⟨rfl, by simp [stretch_zero]⟩
  have hplace := hstart.diagonal_longestRun hbest List.drop_zero
  rw [splitAtRun, ← hplace]
  simp [strip_self]

/-- Equal sequences have everything in common. -/
theorem script_self (items : List α) :
    script items items = if items = [] then [] else [.same items] := by
  have hnil : ∀ frequent : α → Bool, compare frequent ([] : List α) [] = [] := by
    intro frequent
    rw [compare, splitAtRun_self]
    rfl
  rw [script, compare, splitAtRun_self]
  by_cases h : items = []
  · simp [h, change, joinRuns]
  · simp [h, hnil, joinRuns]

end

section

variable {script : List (Segment α)}

@[simp] theorem edits_cons (s : Segment α) :
    edits (s :: script) = Edit.ofSegment s ++ edits script :=
  rfl

theorem edits_append (front back : List (Segment α)) :
    edits (front ++ back) = edits front ++ edits back :=
  List.flatMap_append

theorem edits_joinRuns : edits (joinRuns script) = edits script := by
  fun_induction joinRuns script with
  | case1 => rfl
  | case2 items rest more rest' joined ih =>
      rw [joined] at ih
      simp only [edits_cons, Edit.ofSegment] at ih ⊢
      rw [← ih, List.map_append, List.append_assoc]
  | case3 items rest _ ih => rw [edits_cons, edits_cons, ih]
  | case4 s rest _ ih => rw [edits_cons, edits_cons, ih]

/-- Nothing goes right after something came. -/
def Edit.Before : Edit α → Edit α → Prop
  | .added _, .removed _ => False
  | _, _ => True

theorem inOrder_kept (items : List α) : (items.map Edit.kept).IsChain Edit.Before :=
  (List.pairwise_map.mpr (List.pairwise_of_forall fun _ _ => trivial)).isChain

theorem inOrder_change (old new : List α) : (edits (change old new)).IsChain Edit.Before := by
  rw [change]
  split
  · exact .nil
  · rw [edits_cons, Edit.ofSegment]
    refine List.Pairwise.isChain ?_
    simp only [edits, List.flatMap_nil, List.append_nil]
    refine List.pairwise_append.mpr ⟨?_, ?_, ?_⟩
    · exact List.pairwise_map.mpr (List.pairwise_of_forall fun _ _ => trivial)
    · exact List.pairwise_map.mpr (List.pairwise_of_forall fun _ _ => trivial)
    · simp only [List.mem_map]
      rintro _ ⟨_, _, rfl⟩ _ ⟨_, _, rfl⟩
      trivial

variable [DecidableEq α]

theorem inOrder_compare (frequent : α → Bool) (old new : List α) :
    (edits (compare frequent old new)).IsChain Edit.Before := by
  fun_induction compare frequent old new with
  | case1 old new s h => exact inOrder_change old new
  | case2 old new s h head tail =>
      obtain ⟨x, run, hrun⟩ := List.exists_cons_of_ne_nil h
      rw [edits_append, edits_cons, Edit.ofSegment]
      refine head.append ((inOrder_kept s.run).append tail ?_) ?_
      · intro e he f hf
        obtain ⟨_, _, rfl⟩ := List.mem_map.mp (List.mem_of_getLast? he)
        trivial
      · intro e he f hf
        rw [hrun] at hf
        obtain rfl : Edit.kept x = f := by simpa using hf
        cases e <;> trivial

/-- In a script what goes stands in front of what comes. -/
theorem inOrder_script (old new : List α) :
    (edits (Diff.script old new)).IsChain Edit.Before := by
  rw [Diff.script, edits_joinRuns]
  exact inOrder_compare _ old new

end

end PageManifest.Diff
