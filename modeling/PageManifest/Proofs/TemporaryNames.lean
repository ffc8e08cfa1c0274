import PageManifest.Proofs.Replacing
import PageManifest.Proofs.Targets

/-! # Names of temporary files

A temporary file is named by a prefix and by what is drawn for it: several letters, digits
and underscores.  So it is never taken for a companion file, whose name ends in a short
suffix behind a dot, and a NUL in one of the names stands in all of them.
-/

namespace PageManifest

namespace Path

/-- What holds no separator stays in one piece at the end of a text that is cut. -/
theorem exists_last_piece {sep : Char} {u : Text} (h : sep ∉ u) (t : Text) :
    ∃ pieces last, splitAll sep (t ++ u) = pieces ++ [last ++ u] := by
  induction t with
  | nil => exact ⟨[], [], splitAll_of_not_mem h⟩
  | cons c t ih =>
      obtain ⟨pieces, last, hcut⟩ := ih
      rw [List.cons_append, splitAll, hcut]
      by_cases hc : c = sep
      · rw [if_pos hc]
        exact ⟨[] :: pieces, last, rfl⟩
      · rw [if_neg hc]
        cases pieces with
        | nil => exact ⟨[], c :: last, rfl⟩
        | cons piece pieces => exact ⟨(c :: piece) :: pieces, last, rfl⟩

/-- What holds no slash ends the last name of a path that is written with it at the end. -/
theorem exists_name_below {drawn : String} (hslash : '/' ∉ drawn.toList)
    (hlong : 1 < drawn.toList.length) (p : Path) (written : String) : ∃ root above name,
      p.below (written ++ drawn) = ⟨root, above ++ [name]⟩ ∧
        drawn.toList <:+ name.toList := by
  obtain ⟨pieces, last, hcut⟩ := exists_last_piece hslash written.toList
  have hname : isName (last ++ drawn.toList) = true := by
    refine isName_of_length ?_
    rw [List.length_append]
    omega
  have hlast : drawn.toList <:+ (String.ofList (last ++ drawn.toList)).toList := by
    rw [String.toList_ofList]
    exact List.suffix_append _ _
  unfold below ofString ofText
  rw [String.toList_append, hcut]
  split
  · exact ⟨p.root, p.parts ++ pieces.map String.ofList, _, by simp, hlast⟩
  · exact ⟨rootOf (written.toList ++ drawn.toList), (pieces.filter isName).map String.ofList, _,
      by simp [hname], hlast⟩

/-- Cutting a text loses no character but the separator. -/
theorem any_splitAll_contains {sep c : Char} (hc : c ≠ sep) (t : Text) :
    (splitAll sep t).any (·.contains c) = t.contains c := by
  induction t with
  | nil => rfl
  | cons d t ih =>
      by_cases hd : d = sep
      · have hother : (c == d) = false := by
          rw [hd]
          exact beq_eq_false_iff_ne.mpr hc
        rw [splitAll, if_pos hd, List.any_cons, ih, List.contains_cons, hother]
        rfl
      · rw [splitAll, if_neg hd, List.contains_cons, ← ih]
        cases splitAll sep t with
        | nil =>
            simp only [List.any_cons, List.contains_cons, Bool.or_assoc]
            rfl
        | cons piece pieces => simp only [List.any_cons, List.contains_cons, Bool.or_assoc]

theorem hasNul_ofText (t : Text) : (ofText t).hasNul = t.contains '\x00' := by
  have hnamed : ∀ piece : Text, (isName piece && piece.contains '\x00') =
      piece.contains '\x00' := by
    intro piece
    cases hnul : piece.contains '\x00' with
    | false => exact Bool.and_false _
    | true =>
        rw [Bool.and_true]
        cases hname : isName piece with
        | true => rfl
        | false =>
            rw [isName, Bool.and_eq_false_iff] at hname
            rcases hname with hname | hname
            · rw [Bool.not_eq_false', List.isEmpty_iff] at hname
              rw [hname] at hnul
              cases hnul
            · rw [bne_eq_false_iff_eq] at hname
              rw [hname] at hnul
              cases hnul
  rw [← any_splitAll_contains (show '\x00' ≠ '/' by decide), ofText, hasNul, List.any_map,
    List.any_filter]
  congr 1
  funext piece
  rw [Function.comp_apply, String.toList_ofList]
  exact hnamed piece

/-- What is written below a path has its NULs, and those of the path if it does not start anew. -/
theorem hasNul_below (p : Path) (written : String) : (p.below written).hasNul =
    (written.toList.contains '\x00' || (decide (rootOf written.toList = .none) && p.hasNul)) := by
  unfold below
  split
  · rename_i hroot
    have hnul : ((splitAll '/' written.toList).map String.ofList).any (·.toList.contains '\x00') =
        written.toList.contains '\x00' := by
      rw [List.any_map, ← any_splitAll_contains (show '\x00' ≠ '/' by decide)]
      congr 1
      funext piece
      rw [Function.comp_apply, String.toList_ofList]
    rw [hasNul, List.any_append, hnul, hroot, hasNul]
    exact Bool.or_comm ..
  · rename_i hroot
    rw [ofString, hasNul_ofText, decide_eq_false hroot, Bool.false_and, Bool.or_false]

end Path

/-- A place has the last name of the path that leads there. -/
theorem Store.getLast?_of_locate {s : Store} {here place : Location} {root : PathRoot}
    {above : List String} {name : String} (hname : 2 < name.toList.length)
    (h : s.locate here ⟨root, above ++ [name]⟩ = .ok place) : place.getLast? = some name := by
  have hup : name ≠ ".." := by
    rintro rfl
    exact absurd hname (by decide)
  obtain ⟨directory, -, hdown, -⟩ :=
    exists_directory_of_locate (Path.isName_of_length (by omega)) h
  rw [hdown hup]
  exact List.getLast?_concat

theorem FreshName.not_mem {c : Char} (h : isDrawn c = false) (name : FreshName) :
    c ∉ name.text.toList := by
  intro hc
  have hdrawn := List.all_eq_true.mp name.drawn c hc
  rw [h] at hdrawn
  cases hdrawn

theorem rootOf_append_drawn (t : Text) (name : FreshName) :
    Path.rootOf (t ++ name.text.toList) = Path.rootOf t := by
  have hdrawn : name.text.toList.takeWhile (· = '/') = [] := by
    have hslash := name.not_mem (c := '/') (by decide)
    cases hname : name.text.toList with
    | nil => rfl
    | cons c rest =>
        rw [hname, List.mem_cons, not_or] at hslash
        exact List.takeWhile_cons_of_neg (by simpa using Ne.symm hslash.1)
  have hslashes : (t ++ name.text.toList).takeWhile (· = '/') = t.takeWhile (· = '/') := by
    rw [List.takeWhile_append, hdrawn, List.append_nil]
    split
    · rename_i hall
      exact ((List.takeWhile_prefix _).eq_of_length hall).symm
    · rfl
  rw [Path.rootOf, hslashes, ← Path.rootOf]

/-- All temporary files of a replacement have a NUL in their names, or none has. -/
theorem Machine.hasNul_of_mem {m : Machine} {target temporary : Path} {tempPrefix : String}
    (h : temporary ∈ m.temporaries tempPrefix target) : temporary.hasNul =
      (tempPrefix.toList.contains '\x00' || (decide (Path.rootOf tempPrefix.toList = .none) &&
        (target.parent.absolute ⟨.slash, m.here⟩).hasNul)) := by
  obtain ⟨name, -, rfl⟩ := List.mem_map.mp h
  have hdrawn : name.text.toList.contains '\x00' = false := by
    rw [List.contains_eq_mem, decide_eq_false_iff_not]
    exact name.not_mem (by decide)
  rw [Path.hasNul_below, String.toList_append, rootOf_append_drawn, List.contains_append, hdrawn,
    Bool.or_false]

/-- The temporary files of a replacement and a companion file lie at different places. -/
theorem Machine.locate_ne_of_mem {m : Machine} {path document target temporary : Path}
    {spot : Location} {tempPrefix : String} (h : temporary ∈ m.temporaries tempPrefix path)
    (htarget : Sidecar.companion document = .ok target)
    (hspot : m.store.locate m.here temporary = .ok spot) :
    m.store.locate m.here target ≠ .ok spot := by
  intro hplace
  obtain ⟨fresh, -, rfl⟩ := List.mem_map.mp h
  have hlong := fresh.long
  have hsuffix : Sidecar.companionSuffix.toList.length = 5 := by decide
  obtain ⟨root, above, name, htemporary, hdrawn⟩ :=
    Path.exists_name_below (fresh.not_mem (by decide)) (by omega)
      (path.parent.absolute ⟨.slash, m.here⟩) tempPrefix
  have hlonger := hdrawn.length_le
  rw [htemporary] at hspot
  rw [(Sidecar.companion_eq_ok_iff.mp htarget).2] at hplace
  have hlast := Store.getLast?_of_locate (by omega) hspot
  rw [Store.getLast?_of_locate (by rw [String.toList_append, List.length_append]; omega) hplace,
    Option.some.injEq] at hlast
  -- The last characters are those that were drawn, and they are the suffix with its dot.
  rw [← hlast, String.toList_append] at hdrawn
  have hdot : Sidecar.companionSuffix.toList <:+ fresh.text.toList :=
    List.suffix_of_suffix_length_le (List.suffix_append _ _) hdrawn (by omega)
  exact fresh.not_mem (by decide) (hdot.subset (by decide) : '.' ∈ fresh.text.toList)

end PageManifest
