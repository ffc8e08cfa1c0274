import PageManifest.Proofs.Checks

/-! # Flags on command lines

A switch that takes no value can be added to a command line in a word of its own.  The
line is then read as before but for that switch, and what is checked of it stays the same.
-/

namespace PageManifest.Command

variable {m m' : Machine} {line line' : Line} {g : Given} {switches : List Switch}
  {words words' : List String}

/-! ## Lines with one switch more -/

/-- A line that says what another one says, with one switch more. -/
structure Line.Gains (line' line : Line) (g : Given) : Prop where
  operands : line'.operands = line.operands
  given : ∃ front back, line.given = front ++ back ∧ line'.given = front ++ g :: back

namespace Line.Gains

theorem has_eq (h : line'.Gains line g) {name : String} (hname : name ≠ g.switch.name) :
    line'.has name = line.has name := by
  obtain ⟨front, back, hgiven, hgiven'⟩ := h.given
  rw [Line.has, Line.has, hgiven, hgiven']
  simp [Ne.symm hname]

theorem has_self (h : line'.Gains line g) : line'.has g.switch.name = true := by
  obtain ⟨front, back, -, hgiven'⟩ := h.given
  rw [Line.has, hgiven']
  simp

theorem count_eq (h : line'.Gains line g) {name : String} (hname : name ≠ g.switch.name) :
    line'.count name = line.count name := by
  obtain ⟨front, back, hgiven, hgiven'⟩ := h.given
  rw [Line.count, Line.count, hgiven, hgiven']
  simp [Ne.symm hname]

theorem count_self (h : line'.Gains line g) :
    line'.count g.switch.name = line.count g.switch.name + 1 := by
  obtain ⟨front, back, hgiven, hgiven'⟩ := h.given
  rw [Line.count, Line.count, hgiven, hgiven']
  simp [Nat.add_assoc]

theorem value?_eq (h : line'.Gains line g) {name : String} (hname : name ≠ g.switch.name) :
    line'.value? name = line.value? name := by
  obtain ⟨front, back, hgiven, hgiven'⟩ := h.given
  rw [Line.value?, Line.value?, hgiven, hgiven']
  simp [List.find?_append, Ne.symm hname]

/-- The switches that take values are the same, in the same order. -/
theorem distinct_eq (h : line'.Gains line g) (hflag : g.switch.takes = .nothing) :
    line'.distinct.filter (·.takes ≠ .nothing) = line.distinct.filter (·.takes ≠ .nothing) := by
  obtain ⟨front, back, hgiven, hgiven'⟩ := h.given
  rw [Line.distinct, Line.distinct, filter_eraseDups, filter_eraseDups, hgiven, hgiven']
  simp [hflag]

theorem checkGiven_eq (h : line'.Gains line g) (hflag : g.switch.takes = .nothing)
    (hother : ∀ s ∈ line.distinct, s.takes ≠ .nothing → s.name ≠ g.switch.name) (call : Call) :
    (checkGiven call line' : Act (StateM Machine) Unit) = checkGiven call line := by
  have hidle : ∀ (line : Line) (s : Switch), decide (s.takes ≠ .nothing) = false →
      (checkValue call s.label s.takes ((line.value? s.name).getD "") :
        Act (StateM Machine) Unit) = pure () := by
    intro line s hs
    rw [decide_eq_false_iff_not, Classical.not_not] at hs
    rw [hs]
    rfl
  rw [checkGiven, checkGiven, ← forM_filter fun s _ => hidle line' s,
    ← forM_filter fun s _ => hidle line s, h.distinct_eq hflag]
  refine forM_congr fun s hs => ?_
  obtain ⟨hs, htakes⟩ := List.mem_filter.mp hs
  rw [h.value?_eq (hother s hs (of_decide_eq_true htakes))]

end Line.Gains

/-! ## Adding a switch to a command line -/

theorem readLetters_of_none {word : Text} {r : List Given × Bool}
    (h : readLetters switches none word = .ok r) (next : Option String) :
    readLetters switches next word = .ok r := by
  induction word generalizing r with
  | nil => exact h
  | cons letter rest ih =>
      rw [readLetters] at h ⊢
      cases hfind : switches.find? (·.letter = some letter) with
      | none =>
          rw [hfind] at h
          cases h
      | some s =>
          rw [hfind] at h
          dsimp only at h ⊢
          split at h
          · rename_i hflag
            rw [if_pos hflag]
            cases hrest : readLetters switches none rest with
            | error fault =>
                rw [hrest] at h
                cases h
            | ok given =>
                rw [hrest] at h
                rw [ih hrest]
                exact h
          · rename_i hflag
            rw [if_neg hflag]
            split at h
            · cases h
            · rename_i hvalue
              rw [if_neg hvalue]
              exact h

/-- Switches that are read without the next word are read alike whatever follows. -/
theorem readSwitches_of_none {word : Text} {r : List Given × Bool}
    (h : readSwitches switches word none = .ok r) (next : Option String) :
    readSwitches switches word next = .ok r := by
  unfold readSwitches at h ⊢
  dsimp only at h ⊢
  cases hfind : switches.find? (·.long = String.ofList (splitValue word).1) with
  | none =>
      rw [hfind] at h
      dsimp only at h ⊢
      split at h
      · cases h
      · rename_i hdashes
        rw [if_neg hdashes]
        exact readLetters_of_none h next
  | some s =>
      rw [hfind] at h
      cases hvalue : (splitValue word).2 with
      | some value =>
          rw [hvalue] at h
          exact h
      | none =>
          rw [hvalue] at h
          dsimp only at h ⊢
          split at h
          · rename_i hflag
            rw [if_pos hflag]
            exact h
          · cases h

/-- A word of a command line that is read as switches. -/
def IsSwitchWord (word : String) : Prop :=
  word ≠ "--" ∧ isSwitches word.toList = true

theorem read_cons_of_switches {word : String} {given : List Given} (hword : IsSwitchWord word)
    (hread : readSwitches switches word.toList none = .ok (given, false)) (mixed : Bool)
    (words : List String) : Line.read switches mixed (word :: words) =
      (Line.read switches mixed words).map (Line.prepend given) := by
  rw [Line.read, if_neg hword.1, if_pos hword.2, readSwitches_of_none hread]

theorem read_cons_of_value {word value : String} {given : List Given}
    (hword : IsSwitchWord word)
    (hread : readSwitches switches word.toList (some value) = .ok (given, true)) (mixed : Bool)
    (words : List String) : Line.read switches mixed (word :: value :: words) =
      (Line.read switches mixed words).map (Line.prepend given) := by
  rw [Line.read, if_neg hword.1, if_pos hword.2, List.head?_cons, hread, List.tail_cons]

/-- A command line with one switch more, in a word of its own among the switches. -/
inductive Adds (switches : List Switch) (g : Given) : List String → List String → Prop
  | here {word : String} (words : List String) (hword : IsSwitchWord word)
      (hread : readSwitches switches word.toList none = .ok ([g], false)) :
      Adds switches g words (word :: words)
  | behind {word : String} {given : List Given} {words words' : List String}
      (hword : IsSwitchWord word)
      (hread : readSwitches switches word.toList none = .ok (given, false))
      (h : Adds switches g words words') : Adds switches g (word :: words) (word :: words')
  | behindValue {word value : String} {given : List Given} {words words' : List String}
      (hword : IsSwitchWord word)
      (hread : readSwitches switches word.toList (some value) = .ok (given, true))
      (h : Adds switches g words words') :
      Adds switches g (word :: value :: words) (word :: value :: words')

/-- What a command line is read as, and what one is read as that has a switch more. -/
inductive Gained (g : Given) : Except LineFault Line → Except LineFault Line → Prop
  | fault (fault : LineFault) : Gained g (.error fault) (.error fault)
  | line {line line' : Line} (h : line'.Gains line g) : Gained g (.ok line) (.ok line')

theorem Line.Gains.prepend (h : line'.Gains line g) (given : List Given) :
    (line'.prepend given).Gains (line.prepend given) g := by
  obtain ⟨front, back, hgiven, hgiven'⟩ := h.given
  refine ⟨h.operands, given ++ front, back, ?_, ?_⟩
  · rw [Line.prepend, hgiven, List.append_assoc]
  · rw [Line.prepend, hgiven', List.append_assoc]

theorem Gained.prepend {r r' : Except LineFault Line} (h : Gained g r r') (given : List Given) :
    Gained g (r.map (Line.prepend given)) (r'.map (Line.prepend given)) := by
  cases h with
  | fault fault => exact .fault fault
  | line h => exact .line (h.prepend given)

theorem gained_of_adds (h : Adds switches g words words') (mixed : Bool) :
    Gained g (Line.read switches mixed words) (Line.read switches mixed words') := by
  induction h with
  | here words hword hread =>
      rw [read_cons_of_switches hword hread]
      cases Line.read switches mixed words with
      | error fault => exact .fault fault
      | ok line => exact .line ⟨rfl, [], line.given, rfl, rfl⟩
  | behind hword hread _ ih =>
      rw [read_cons_of_switches hword hread, read_cons_of_switches hword hread]
      exact ih.prepend _
  | behindValue hword hread _ ih =>
      rw [read_cons_of_value hword hread, read_cons_of_value hword hread]
      exact ih.prepend _

/-! ### The switches of a line -/

/-- Reading that yields switches of a table only. -/
def FromTable (switches : List Switch) (r : Except LineFault (List Given × Bool)) : Prop :=
  ∀ given used, r = .ok (given, used) → ∀ g ∈ given, g.switch ∈ switches

theorem fromTable_error (fault : LineFault) : FromTable switches (.error fault) := by
  intro given used h
  cases h

theorem fromTable_singleton {s : Switch} (hs : s ∈ switches) (value : String) (used : Bool) :
    FromTable switches (.ok ([⟨s, value⟩], used)) := by
  intro given used' h g hg
  obtain ⟨rfl, rfl⟩ := Prod.mk.inj (Except.ok.inj h)
  rw [List.mem_singleton.mp hg]
  exact hs

theorem fromTable_takeNext {s : Switch} (hs : s ∈ switches) (written : String)
    (next : Option String) : FromTable switches (takeNext s written next) := by
  cases next with
  | none => exact fromTable_error _
  | some value => exact fromTable_singleton hs value true

theorem fromTable_readLetters (next : Option String) (word : Text) :
    FromTable switches (readLetters switches next word) := by
  induction word with
  | nil =>
      intro given used h g hg
      obtain ⟨rfl, rfl⟩ := Prod.mk.inj (Except.ok.inj h)
      cases hg
  | cons letter rest ih =>
      rw [readLetters]
      cases hfind : switches.find? (·.letter = some letter) with
      | none => exact fromTable_error _
      | some s =>
          have hs : s ∈ switches := List.mem_of_find?_eq_some hfind
          dsimp only
          split
          · cases hrest : readLetters switches next rest with
            | error fault => exact fromTable_error _
            | ok r =>
                obtain ⟨given, used⟩ := r
                intro given' used' h g hg
                obtain ⟨rfl, rfl⟩ := Prod.mk.inj (Except.ok.inj h)
                rcases List.mem_cons.mp hg with rfl | hg
                · exact hs
                · exact ih given used hrest g hg
          · split
            · exact fromTable_takeNext hs _ next
            · exact fromTable_singleton hs _ false

theorem fromTable_readSwitches (word : Text) (next : Option String) :
    FromTable switches (readSwitches switches word next) := by
  unfold readSwitches
  dsimp only
  cases hfind : switches.find? (·.long = String.ofList (splitValue word).1) with
  | none =>
      dsimp only
      split
      · exact fromTable_error _
      · exact fromTable_readLetters next _
  | some s =>
      have hs : s ∈ switches := List.mem_of_find?_eq_some hfind
      cases (splitValue word).2 with
      | some value =>
          dsimp only
          split
          · exact fromTable_error _
          · exact fromTable_singleton hs _ false
      | none =>
          dsimp only
          split
          · exact fromTable_singleton hs "" false
          · exact fromTable_takeNext hs _ next

theorem switch_mem_of_prepend {word : Text} {next : Option String} {given : List Given}
    {used : Bool} {r : Except LineFault Line}
    (hread : readSwitches switches word next = .ok (given, used))
    (hrest : ∀ line, r = .ok line → ∀ g ∈ line.given, g.switch ∈ switches)
    (h : r.map (Line.prepend given) = .ok line) : ∀ g ∈ line.given, g.switch ∈ switches := by
  intro g hg
  cases r with
  | error fault => cases h
  | ok line' =>
      obtain rfl : line'.prepend given = line := Except.ok.inj h
      rcases List.mem_append.mp hg with hg | hg
      · exact fromTable_readSwitches _ _ given used hread g hg
      · exact hrest line' rfl g hg

theorem switch_mem_of_operands {operands : List String} {r : Except LineFault Line}
    (hr : r = .ok ⟨[], operands⟩) (h : r = .ok line) : ∀ g ∈ line.given, g.switch ∈ switches := by
  intro g hg
  rw [← Except.ok.inj (hr.symm.trans h)] at hg
  cases hg

/-- The switches of a line are those of the table that it was read with. -/
theorem switch_mem_of_read {mixed : Bool} (h : Line.read switches mixed words = .ok line) :
    ∀ g ∈ line.given, g.switch ∈ switches := by
  fun_induction Line.read switches mixed words generalizing line with
  | case1 => exact switch_mem_of_operands rfl h
  | case2 rest => exact switch_mem_of_operands rfl h
  | case3 word rest hdash hswitch fault hread => cases h
  | case4 word rest hdash hswitch given hread ih =>
      exact switch_mem_of_prepend hread (fun _ hrest => ih hrest) h
  | case5 word rest hdash hswitch given hread ih =>
      exact switch_mem_of_prepend hread (fun _ hrest => ih hrest) h
  | case6 word rest hdash hswitch hmixed ih =>
      cases hrest : Line.read switches mixed rest with
      | error fault =>
          rw [hrest] at h
          cases h
      | ok line' =>
          rw [hrest] at h
          intro g hg
          rw [← Except.ok.inj h] at hg
          exact ih hrest g hg
  | case7 word rest hdash hswitch hmixed => exact switch_mem_of_operands rfl h

end PageManifest.Command
