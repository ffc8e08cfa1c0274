import PageManifest.Text.Basic

/-!
# Edit scripts

Two sequences are compared by their common runs.  The longest common run splits
both, and the parts on either side are compared in turn.  A script keeps the items
of both sequences, so each of them can be read off it.
-/

namespace PageManifest.Diff

/-- A stretch of an edit script: items of both sequences, or items of each that differ. -/
inductive Segment (α : Type)
  | same (items : List α)
  | changed (old new : List α)
  deriving DecidableEq, Repr

namespace Segment

variable {α : Type}

/-- The items of the first sequence. -/
def old : Segment α → List α
  | same items => items
  | changed old _ => old

/-- The items of the second sequence. -/
def new : Segment α → List α
  | same items => items
  | changed _ new => new

end Segment

/-- Two sequences with what they have in common at their start taken off. -/
structure Stripped (α : Type) where
  run : List α
  old : List α
  new : List α

/-- A common run of two sequences, and what lies on either side of it. -/
structure Split (α : Type) where
  oldHead : List α
  newHead : List α
  run : List α
  oldTail : List α
  newTail : List α

/-- Where a common run starts, and its length. -/
structure Anchor where
  old : Nat
  new : Nat
  size : Nat

section

variable {α : Type}

/-- The segments for two sequences without common items in between. -/
def change (old new : List α) : List (Segment α) :=
  if old.isEmpty && new.isEmpty then [] else [.changed old new]

theorem change_old (old new : List α) : (change old new).flatMap Segment.old = old := by
  unfold change
  split
  · rename_i h
    simp only [Bool.and_eq_true, List.isEmpty_iff] at h
    simp [h.1]
  · simp [Segment.old]

theorem change_new (old new : List α) : (change old new).flatMap Segment.new = new := by
  unfold change
  split
  · rename_i h
    simp only [Bool.and_eq_true, List.isEmpty_iff] at h
    simp [h.2]
  · simp [Segment.new]

def joinRuns : List (Segment α) → List (Segment α)
  | [] => []
  | .same items :: rest =>
      match joinRuns rest with
      | .same more :: rest => .same (items ++ more) :: rest
      | rest => .same items :: rest
  | s :: rest => s :: joinRuns rest

theorem joinRuns_old (script : List (Segment α)) :
    (joinRuns script).flatMap Segment.old = script.flatMap Segment.old := by
  fun_induction joinRuns script with
  | case1 => rfl
  | case2 items rest more rest' joined ih =>
      simp only [joined, List.flatMap_cons, Segment.old] at ih
      simp [Segment.old, ← ih]
  | case3 items rest _ ih => simp [Segment.old, ih]
  | case4 s rest _ ih => simp [ih]

theorem joinRuns_new (script : List (Segment α)) :
    (joinRuns script).flatMap Segment.new = script.flatMap Segment.new := by
  fun_induction joinRuns script with
  | case1 => rfl
  | case2 items rest more rest' joined ih =>
      simp only [joined, List.flatMap_cons, Segment.new] at ih
      simp [Segment.new, ← ih]
  | case3 items rest _ ih => simp [Segment.new, ih]
  | case4 s rest _ ih => simp [ih]

end

section

variable {α : Type} [DecidableEq α]

/-- Takes off the items that two sequences have in common at their start. -/
def strip : List α → List α → Stripped α
  | x :: old, y :: new =>
      if x = y then
        let s := strip old new
        ⟨x :: s.run, s.old, s.new⟩
      else ⟨[], x :: old, y :: new⟩
  | old, new => ⟨[], old, new⟩

/--
For each place in `new` the length of the common run that ends there and in `x`;
`ends` holds these lengths for the item in front of `x`.  Frequent items start
and continue no run.
-/
def runsEndingAt (frequent : α → Bool) (x : α) (ends : List Nat) (new : List α) : List Nat :=
  if frequent x then List.replicate new.length 0
  else List.zipWith (fun size y => if x = y then size + 1 else 0) (0 :: ends) new

/-- The first longest run among the best one so far and those that end in item `i`. -/
def better (best : Anchor) (i : Nat) : (j : Nat) → (ends : List Nat) → Anchor
  | _, [] => best
  | j, size :: ends =>
      better (if best.size < size then ⟨i + 1 - size, j + 1 - size, size⟩ else best) i (j + 1) ends

/-- The first longest common run without frequent items. -/
def longestRun (frequent : α → Bool) (new : List α) (best : Anchor) (ends : List Nat) :
    (i : Nat) → (old : List α) → Anchor
  | _, [] => best
  | i, x :: old =>
      let row := runsEndingAt frequent x ends new
      longestRun frequent new (better best i 0 row) row (i + 1) old

/--
Splits two sequences at their longest common run without frequent items.  The
run then takes in whatever else the sequences have in common around it.
-/
def splitAtRun (frequent : α → Bool) (old new : List α) : Split α :=
  let a := longestRun frequent new ⟨0, 0, 0⟩ (List.replicate new.length 0) 0 old
  let back := strip (old.take a.old).reverse (new.take a.new).reverse
  let ahead := strip (old.drop a.old) (new.drop a.new)
  ⟨back.old.reverse, back.new.reverse, back.run.reverse ++ ahead.run, ahead.old, ahead.new⟩

theorem strip_old (old new : List α) : (strip old new).run ++ (strip old new).old = old := by
  fun_induction strip old new with
  | case1 x old new s ih => simpa using ih
  | case2 x old y new h => rfl
  | case3 old new h => rfl

theorem strip_new (old new : List α) : (strip old new).run ++ (strip old new).new = new := by
  fun_induction strip old new with
  | case1 x old new s ih => simpa using ih
  | case2 x old y new h => rfl
  | case3 old new h => rfl

theorem splitAtRun_old (frequent : α → Bool) (old new : List α) :
    let s := splitAtRun frequent old new
    s.oldHead ++ (s.run ++ s.oldTail) = old := by
  generalize ha : longestRun frequent new ⟨0, 0, 0⟩ (List.replicate new.length 0) 0 old = a
  have back := congrArg List.reverse
    (strip_old (old.take a.old).reverse (new.take a.new).reverse)
  have ahead := strip_old (old.drop a.old) (new.drop a.new)
  simp only [List.reverse_append, List.reverse_reverse] at back
  simp only [splitAtRun, ha, List.append_assoc]
  rw [ahead, ← List.append_assoc, back, List.take_append_drop]

theorem splitAtRun_new (frequent : α → Bool) (old new : List α) :
    let s := splitAtRun frequent old new
    s.newHead ++ (s.run ++ s.newTail) = new := by
  generalize ha : longestRun frequent new ⟨0, 0, 0⟩ (List.replicate new.length 0) 0 old = a
  have back := congrArg List.reverse
    (strip_new (old.take a.old).reverse (new.take a.new).reverse)
  have ahead := strip_new (old.drop a.old) (new.drop a.new)
  simp only [List.reverse_append, List.reverse_reverse] at back
  simp only [splitAtRun, ha, List.append_assoc]
  rw [ahead, ← List.append_assoc, back, List.take_append_drop]

theorem splitAtRun_shorter (frequent : α → Bool) (old new : List α)
    (h : (splitAtRun frequent old new).run ≠ []) :
    (splitAtRun frequent old new).oldHead.length < old.length ∧
      (splitAtRun frequent old new).oldTail.length < old.length := by
  have length := congrArg List.length (splitAtRun_old frequent old new)
  have pos := List.length_pos_iff.mpr h
  simp only [List.length_append] at length
  omega

/-- Splits at common runs as long as there are any. -/
def compare (frequent : α → Bool) (old new : List α) : List (Segment α) :=
  let s := splitAtRun frequent old new
  if _h : s.run = [] then change old new
  else
    compare frequent s.oldHead s.newHead ++ .same s.run :: compare frequent s.oldTail s.newTail
termination_by old.length
decreasing_by
  · exact (splitAtRun_shorter frequent old new _h).1
  · exact (splitAtRun_shorter frequent old new _h).2

theorem compare_old (frequent : α → Bool) (old new : List α) :
    (compare frequent old new).flatMap Segment.old = old := by
  fun_induction compare frequent old new with
  | case1 old new s h => exact change_old old new
  | case2 old new s h head tail =>
      have whole := splitAtRun_old frequent old new
      simp only [List.flatMap_append, List.flatMap_cons, head, tail, Segment.old]
      exact whole

theorem compare_new (frequent : α → Bool) (old new : List α) :
    (compare frequent old new).flatMap Segment.new = new := by
  fun_induction compare frequent old new with
  | case1 old new s h => exact change_new old new
  | case2 old new s h head tail =>
      have whole := splitAtRun_new frequent old new
      simp only [List.flatMap_append, List.flatMap_cons, head, tail, Segment.new]
      exact whole

/-- From this length on a sequence may have items that are too frequent to start from. -/
def frequencyFloor : Nat := 200

/-- The items that make up more than a hundredth of a long sequence. -/
def frequentItems (new : List α) : List α :=
  if new.length < frequencyFloor then []
  else new.filter fun x => new.length / 100 + 1 < new.count x

/-- The edit script that turns `old` into `new`. -/
def script (old new : List α) : List (Segment α) :=
  let frequent := frequentItems new
  joinRuns (compare (fun x => frequent.contains x) old new)

/-- A script loses nothing of the first sequence. -/
theorem script_old (old new : List α) : (script old new).flatMap Segment.old = old := by
  rw [script, joinRuns_old, compare_old]

/-- A script ends at the second sequence. -/
theorem script_new (old new : List α) : (script old new).flatMap Segment.new = new := by
  rw [script, joinRuns_new, compare_new]

end

end PageManifest.Diff
