import PageManifest.Store.Basic

/-! # Walking directory trees

Where a path leads is decided by the directories of a store, so writing and
deleting files does not move anything.  Paths that share all but their last name
lead to places in one directory.
-/

namespace PageManifest

namespace Path

theorem isName_toList_iff {name : String} :
    isName name.toList = true ↔ ¬ (name = "" ∨ name = ".") := by
  have hdot : name.toList = ['.'] ↔ name = "." := by
    rw [← String.toList_inj]
    rfl
  simp only [isName, Bool.and_eq_true, Bool.not_eq_true', bne_iff_ne, ne_eq, not_or, hdot,
    List.isEmpty_eq_false_iff, String.toList_eq_nil_iff]

theorem not_mem_of_mem_splitAll {sep : Char} {t piece : Text} (h : piece ∈ splitAll sep t) :
    sep ∉ piece := by
  induction t generalizing piece with
  | nil =>
      rw [splitAll, List.mem_singleton] at h
      simp [h]
  | cons c t ih =>
      rw [splitAll] at h
      by_cases hc : c = sep
      · rw [if_pos hc, List.mem_cons] at h
        rcases h with rfl | h
        · simp
        · exact ih h
      · rw [if_neg hc] at h
        split at h
        · rw [List.mem_singleton] at h
          simp [h, Ne.symm hc]
        · rename_i first rest hcut
          rw [hcut] at ih
          rcases List.mem_cons.mp h with rfl | h
          · have hfirst := ih (List.mem_cons_self ..)
            simp [hfirst, Ne.symm hc]
          · exact ih (List.mem_cons_of_mem _ h)

/-- The names of a path that was read are none that a walk passes over, and hold no slash. -/
theorem name_of_mem_parts {w : Text} {name : String} (h : name ∈ (ofText w).parts) :
    isName name.toList = true ∧ '/' ∉ name.toList := by
  obtain ⟨piece, hpiece, rfl⟩ := List.mem_map.mp h
  obtain ⟨hcut, hname⟩ := List.mem_filter.mp hpiece
  rw [String.toList_ofList]
  exact ⟨hname, not_mem_of_mem_splitAll hcut⟩

/-- A path that was read has no last name, or one that a walk does not pass over. -/
theorem name_ofText (w : Text) :
    (ofText w).name ≠ "." ∧ '/' ∉ (ofText w).name.toList := by
  rw [name]
  cases hlast : (ofText w).parts.getLast? with
  | none => exact ⟨by decide, by decide⟩
  | some name =>
      obtain ⟨hname, hslash⟩ := name_of_mem_parts (List.mem_of_getLast? hlast)
      exact ⟨fun hdot => isName_toList_iff.mp hname (.inr hdot), hslash⟩

theorem parent_child_name {p : Path} (h : p.parts ≠ []) : p.parent.child p.name = p := by
  obtain ⟨root, parts⟩ := p
  have hname : name ⟨root, parts⟩ = parts.getLast h := by
    rw [name, List.getLast?_eq_some_getLast h]
    rfl
  rw [hname, child, parent, List.dropLast_concat_getLast]

theorem hasNul_child (p : Path) (name : String) :
    (p.child name).hasNul = (p.hasNul || name.toList.contains '\x00') := by
  simp [child, hasNul]

/-- The octets of names with a slash behind each. -/
def slashedSize : List String → Nat
  | [] => 0
  | name :: names => name.utf8ByteSize + 1 + slashedSize names

theorem utf8ByteSize_intercalate (names : List String) :
    ("/".intercalate names).utf8ByteSize = slashedSize names - 1 := by
  induction names with
  | nil => rfl
  | cons name names ih =>
      cases names with
      | nil => simp [slashedSize]
      | cons next names =>
          have hslash : "/".utf8ByteSize = 1 := rfl
          rw [String.intercalate_cons_cons, String.utf8ByteSize_append,
            String.utf8ByteSize_append, ih, hslash]
          simp only [slashedSize]
          omega

theorem slashedSize_filter_le (keep : String → Bool) (names : List String) :
    slashedSize (names.filter keep) ≤ slashedSize names := by
  induction names with
  | nil => exact Nat.le_refl _
  | cons name names ih =>
      rw [List.filter_cons]
      split
      · simp only [slashedSize]
        omega
      · simp only [slashedSize]
        omega

theorem utf8ByteSize_tidy_le {p : Path} (h : p.root ≠ .none) :
    p.tidy.toString.utf8ByteSize ≤ p.toString.utf8ByteSize := by
  have htext : ∀ q : Path, q.root ≠ .none →
      q.toString = rootText q.root ++ "/".intercalate q.parts := by
    rintro ⟨root, parts⟩ hroot
    cases root with
    | none => exact absurd rfl hroot
    | slash => rfl
    | doubleSlash => rfl
  have hfewer := slashedSize_filter_le (fun name => isName name.toList) p.parts
  rw [htext p h, htext p.tidy h, String.utf8ByteSize_append, String.utf8ByteSize_append,
    utf8ByteSize_intercalate, utf8ByteSize_intercalate]
  change (rootText p.root).utf8ByteSize +
    (slashedSize (p.parts.filter fun name => isName name.toList) - 1) ≤ _
  omega

theorem hasNul_tidy {p : Path} (h : p.hasNul = false) : p.tidy.hasNul = false := by
  rw [hasNul, List.any_eq_false] at h ⊢
  intro name hname
  exact h name (List.mem_filter.mp hname).1

end Path

namespace Store

variable {s s' : Store} {here place : Location} {names : List String}

/-- One store is another but for one place. -/
def Updated (s s' : Store) (place : Location) (node : Option Node) : Prop :=
  ∀ other, s'.node? other = if other = place then node else s.node? other

/-- Two stores have the same directories. -/
def SameDirectories (s s' : Store) : Prop :=
  ∀ place, s.node? place = some .directory ↔ s'.node? place = some .directory

theorem SameDirectories.symm (h : SameDirectories s s') : SameDirectories s' s :=
  fun place => (h place).symm

theorem SameDirectories.trans {s'' : Store} (h : SameDirectories s s')
    (h' : SameDirectories s' s'') : SameDirectories s s'' :=
  fun place => (h place).trans (h' place)

theorem Updated.sameDirectories {node : Option Node} (h : Updated s s' place node)
    (hplace : s.node? place ≠ some .directory) (hnode : node ≠ some .directory) :
    SameDirectories s s' := by
  intro other
  rw [h other]
  by_cases hother : other = place
  · rw [if_pos hother, hother]
    exact ⟨fun hdir => absurd hdir hplace, fun hdir => absurd hdir hnode⟩
  · rw [if_neg hother]

/-- A walk that succeeds has looked at directories only. -/
theorem walk_congr (h : SameDirectories s s') (hwalk : s.walk here names = .ok place) :
    s'.walk here names = .ok place := by
  induction names generalizing here with
  | nil => exact hwalk
  | cons name names ih =>
      rw [walk] at hwalk ⊢
      split at hwalk
      · rename_i hdot
        rw [if_pos hdot]
        exact ih hwalk
      · rename_i hdot
        rw [if_neg hdot]
        split at hwalk
        · rename_i hup
          rw [if_pos hup]
          exact ih hwalk
        · rename_i hup
          rw [if_neg hup]
          split at hwalk
          · cases hwalk
          · rename_i hlong
            rw [if_neg hlong]
            split at hwalk
            · rename_i hlast
              rw [if_pos hlast]
              exact hwalk
            · rename_i hlast
              rw [if_neg hlast]
              split at hwalk
              · rename_i hdir
                rw [(h _).mp hdir]
                exact ih hwalk
              · cases hwalk
              · cases hwalk

theorem locate_eq_ok_iff {path : Path} : s.locate here path = .ok place ↔
    path.toString.utf8ByteSize ≤ pathLimit ∧
      s.walk (if path.root = .none then here else []) path.parts = .ok place := by
  unfold locate
  by_cases hlong : pathLimit < path.toString.utf8ByteSize
  · rw [if_pos hlong]
    constructor
    · intro h
      cases h
    · intro h
      omega
  · rw [if_neg hlong]
    exact ⟨fun h => ⟨by omega, h⟩, fun h => h.2⟩

/-- No way is refused because something is there. -/
theorem walk_ne_alreadyThere (s : Store) (here : Location) (names : List String) :
    s.walk here names ≠ .error .alreadyThere := by
  induction names generalizing here with
  | nil => nofun
  | cons name names ih =>
      unfold walk
      split
      · exact ih here
      · split
        · exact ih here.dropLast
        · split
          · nofun
          · split
            · nofun
            · split
              · exact ih _
              · nofun
              · nofun

theorem locate_ne_alreadyThere (s : Store) (here : Location) (path : Path) :
    s.locate here path ≠ .error .alreadyThere := by
  unfold locate
  split
  · nofun
  · exact s.walk_ne_alreadyThere _ path.parts

theorem locate_congr (h : SameDirectories s s') {path : Path}
    (hlocate : s.locate here path = .ok place) : s'.locate here path = .ok place := by
  obtain ⟨hsize, hwalk⟩ := locate_eq_ok_iff.mp hlocate
  exact locate_eq_ok_iff.mpr ⟨hsize, walk_congr h hwalk⟩

/-- A walk goes through the directory that all names but the last ones lead to. -/
theorem walk_append {last : List String} (h : last ≠ []) (s : Store) (here : Location)
    (names : List String) : s.walk here (names ++ last) =
      (s.walk here (names ++ [""])).bind fun directory => s.walk directory last := by
  induction names generalizing here with
  | nil => rfl
  | cons name names ih =>
      have hmore : names ++ last ≠ [] := by simp [h]
      have hmore' : names ++ [""] ≠ [] := by simp
      rw [List.cons_append, List.cons_append, walk, walk]
      by_cases hdot : name = "" ∨ name = "."
      · rw [if_pos hdot, if_pos hdot, ih]
      · rw [if_neg hdot, if_neg hdot]
        by_cases hup : name = ".."
        · rw [if_pos hup, if_pos hup, ih]
        · rw [if_neg hup, if_neg hup]
          by_cases hlong : nameLimit < name.utf8ByteSize
          · rw [if_pos hlong, if_pos hlong]
            rfl
          · rw [if_neg hlong, if_neg hlong, if_neg hmore, if_neg hmore']
            split
            · exact ih _
            · rfl
            · rfl

/-- Names that a walk passes over can be left out of a walk that succeeds. -/
theorem walk_filter (h : s.walk here names = .ok place) :
    s.walk here (names.filter fun name => Path.isName name.toList) = .ok place := by
  induction names generalizing here with
  | nil => exact h
  | cons name names ih =>
      rw [walk] at h
      by_cases hdot : name = "" ∨ name = "."
      · have hpass : Path.isName name.toList = false := by
          rw [Bool.eq_false_iff]
          exact fun hname => Path.isName_toList_iff.mp hname hdot
        rw [if_pos hdot] at h
        rw [List.filter_cons, hpass]
        exact ih h
      · rw [if_neg hdot] at h
        rw [List.filter_cons, Path.isName_toList_iff.mpr hdot, if_pos rfl, walk, if_neg hdot]
        by_cases hup : name = ".."
        · rw [if_pos hup] at h ⊢
          exact ih h
        · rw [if_neg hup] at h ⊢
          by_cases hlong : nameLimit < name.utf8ByteSize
          · rw [if_pos hlong] at h
            cases h
          · rw [if_neg hlong] at h ⊢
            by_cases hlast : names = []
            · rw [if_pos hlast] at h
              rw [hlast, List.filter_nil, if_pos rfl]
              exact h
            · rw [if_neg hlast] at h
              split at h
              · rename_i hdir
                have hrest := ih h
                by_cases hnone : (names.filter fun name => Path.isName name.toList) = []
                · rw [if_pos hnone]
                  rw [hnone] at hrest
                  exact hrest
                · rw [if_neg hnone]
                  exact hrest
              · cases h
              · cases h

theorem locate_tidy {path : Path} (hroot : path.root ≠ .none)
    (h : s.locate here path = .ok place) : s.locate here path.tidy = .ok place := by
  obtain ⟨hsize, hwalk⟩ := locate_eq_ok_iff.mp h
  have hshorter := Path.utf8ByteSize_tidy_le hroot
  refine locate_eq_ok_iff.mpr ⟨by omega, ?_⟩
  exact walk_filter hwalk

theorem lookup_eq_none_of_node? (h : s.node? place = none) : s.nodes.lookup place = none := by
  unfold node? at h
  split at h
  · cases h
  · exact h

theorem ne_of_mem_nodes (h : s.node? place = none) : ∀ entry ∈ s.nodes, entry.1 ≠ place := by
  intro entry hentry
  have hother := List.lookup_eq_none_iff.mp (lookup_eq_none_of_node? h) entry hentry
  rw [bne_iff_ne] at hother
  exact Ne.symm hother

theorem nodes_set (h : s.node? place = none) (node : Node) :
    (s.set place node).nodes = s.nodes ++ [(place, node)] := by
  unfold set
  rw [lookup_eq_none_of_node? h]
  rfl

theorem erase_set (h : s.node? place = none) (node : Node) :
    (s.set place node).erase place = s := by
  unfold erase
  rw [nodes_set h, List.filter_append, List.filter_eq_self.mpr fun entry hentry =>
    decide_eq_true (ne_of_mem_nodes h entry hentry)]
  simp

/-- Only what was put last at a place is there. -/
theorem set_set (h : s.node? place = none) (node node' : Node) :
    (s.set place node).set place node' = s.set place node' := by
  have hfound : ((s.set place node).nodes.lookup place).isSome = true := by
    rw [nodes_set h, List.lookup_append, lookup_eq_none_of_node? h]
    simp
  have hvacant : ¬ (s.nodes.lookup place).isSome = true := by
    rw [lookup_eq_none_of_node? h]
    exact Bool.false_ne_true
  conv => lhs; rw [set, if_pos hfound, nodes_set h, List.map_append]
  rw [map_replaced (ne_of_mem_nodes h), set, if_neg hvacant]
  simp

theorem walk_singleton_eq_ok_iff {name : String} (hname : Path.isName name.toList = true) :
    s.walk here [name] = .ok place ↔
      name = ".." ∧ place = here.dropLast ∨
        name ≠ ".." ∧ name.utf8ByteSize ≤ nameLimit ∧ place = here ++ [name] := by
  rw [walk, if_neg (Path.isName_toList_iff.mp hname)]
  by_cases hup : name = ".."
  · rw [if_pos hup]
    simp only [hup, walk, Except.ok.injEq, true_and, ne_eq, not_true_eq_false, false_and, or_false]
    exact eq_comm
  · rw [if_neg hup]
    by_cases hlong : nameLimit < name.utf8ByteSize
    · rw [if_pos hlong]
      simp only [reduceCtorEq, hup, false_and, ne_eq, not_false_eq_true, true_and, false_or,
        false_iff]
      omega
    · rw [if_neg hlong, if_pos rfl]
      simp only [Except.ok.injEq, hup, false_and, ne_eq, not_false_eq_true, true_and, false_or]
      constructor
      · intro h
        exact ⟨by omega, h.symm⟩
      · intro h
        exact h.2.symm

/-- Paths that differ in their last name only lead through one directory. -/
theorem exists_directory_of_locate {root : PathRoot} {above : List String} {name : String}
    (hname : Path.isName name.toList = true)
    (h : s.locate here ⟨root, above ++ [name]⟩ = .ok place) : ∃ directory,
      (name = ".." → place = directory.dropLast) ∧
      (name ≠ ".." → place = directory ++ [name]) ∧
      ∀ other place', Path.isName other.toList = true → other ≠ ".." →
        s.locate here ⟨root, above ++ [other]⟩ = .ok place' → place' = directory ++ [other] := by
  have hwalk := (locate_eq_ok_iff.mp h).2
  rw [walk_append (by simp)] at hwalk
  cases hdir : s.walk (if root = .none then here else []) (above ++ [""]) with
  | error cause =>
      rw [hdir] at hwalk
      cases hwalk
  | ok directory =>
      rw [hdir] at hwalk
      change s.walk directory [name] = .ok place at hwalk
      rw [walk_singleton_eq_ok_iff hname] at hwalk
      refine ⟨directory, ?_, ?_, ?_⟩
      · intro hup
        rcases hwalk with hwalk | hwalk
        · exact hwalk.2
        · exact absurd hup hwalk.1
      · intro hup
        rcases hwalk with hwalk | hwalk
        · exact absurd hwalk.1 hup
        · exact hwalk.2.2
      · intro other place' hother hup hlocate
        have hwalk' := (locate_eq_ok_iff.mp hlocate).2
        rw [walk_append (by simp), hdir] at hwalk'
        change s.walk directory [other] = .ok place' at hwalk'
        rw [walk_singleton_eq_ok_iff hother] at hwalk'
        rcases hwalk' with hwalk' | hwalk'
        · exact absurd hwalk'.1 hup
        · exact hwalk'.2.2

theorem readFile_eq_ok_iff {path : Path} {content : Bytes} :
    s.readFile here path = .ok content ↔
      ∃ place, s.locate here path = .ok place ∧ s.node? place = some (.file content) := by
  unfold readFile find
  constructor
  · intro h
    cases hlocate : s.locate here path with
    | error cause =>
        rw [hlocate] at h
        cases h
    | ok place =>
        rw [hlocate] at h
        cases hnode : s.node? place with
        | none => simp [hnode] at h
        | some node =>
            cases node with
            | directory => simp [hnode] at h
            | file content' =>
                simp only [hnode, Except.ok.injEq] at h
                exact ⟨place, rfl, by rw [hnode, h]⟩
  · rintro ⟨place, hlocate, hnode⟩
    simp [hlocate, hnode]

end Store

end PageManifest
