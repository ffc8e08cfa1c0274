import PageManifest.Proofs.Loading

/-! # The nearest configuration file

A search goes from a directory up to the root and ends at the first directory that has a
configuration: a file of its own, or a project file with a table for the program.  It
finds the file of that directory and does not depend on the directories above, unless it
meets a directory that it passes over or stops at for another reason.
-/

namespace PageManifest.Config

open Run

variable {m m' : Machine} {directory : Path} {directories rest : List Path}
  {document : Toml.Entries} {found : Option Path}

/-! ## What a directory has -/

/-- What is held at a path is a document, if anything is. -/
def Parses (m : Machine) (path : Path) : Prop :=
  ∀ content, m.Holds path content → ∃ document, documentIn path content = .ok document

/-- A document has some value under the key of the program, in the table of tools. -/
def Says (document : Toml.Entries) (value : Toml.Value) : Prop :=
  ∃ form tools, document.lookup "tool".toList = some (.table form tools) ∧
    tools.lookup tableName.toList = some value

/-- A directory has a configuration file of its own. -/
def HasOwn (m : Machine) (directory : Path) : Prop :=
  ∃ content, m.Holds (directory.child ownFile) content

/-- The project file of a directory has some value for the program. -/
def ProjectSays (m : Machine) (directory : Path) (value : Toml.Value) : Prop :=
  ∃ content document, m.Holds (directory.child projectFile) content ∧
    documentIn (directory.child projectFile) content = .ok document ∧ Says document value

/-- The project file of a directory has a table for the program, whatever is in it. -/
def HasTable (m : Machine) (directory : Path) : Prop :=
  ∃ form entries, ProjectSays m directory (.table form entries)

/-- A directory has a configuration. -/
def Configured (m : Machine) (directory : Path) : Prop :=
  HasOwn m directory ∨ HasTable m directory

/-- The file with the configuration of a directory; a file of its own comes first. -/
inductive FileOf (m : Machine) (directory : Path) : Path → Prop
  | own (h : HasOwn m directory) : FileOf m directory (directory.child ownFile)
  | project (missing : ¬ HasOwn m directory) (h : HasTable m directory) :
      FileOf m directory (directory.child projectFile)

/-- The file of the first directory that has a configuration, if there is such a directory. -/
def Nearest (m : Machine) (directories : List Path) : Option Path → Prop
  | none => ∀ directory ∈ directories, ¬ Configured m directory
  | some path => ∃ front directory back, directories = front ++ directory :: back ∧
      (∀ below ∈ front, ¬ Configured m below) ∧ FileOf m directory path

/-- A directory that is not above the first one that has a configuration. -/
def Reached (m : Machine) (directories : List Path) (directory : Path) : Prop :=
  ∃ front back, directories = front ++ directory :: back ∧
    ∀ below ∈ front, ¬ Configured m below

/--
A directory without a file of its own whose project file has an empty table for the
program, or something that is no table; or one whose files cannot be looked at, since
their paths are too long.
-/
inductive Misleading (m : Machine) (directory : Path) : Prop
  | ownTooLong (h : m.Overlong (directory.child ownFile))
  | projectTooLong (missing : ¬ HasOwn m directory)
      (h : m.Overlong (directory.child projectFile))
  | emptyTable {form : Toml.Form} (missing : ¬ HasOwn m directory)
      (h : ProjectSays m directory (.table form []))
  | noTable {value : Toml.Value} (missing : ¬ HasOwn m directory)
      (h : ProjectSays m directory value) (other : ∀ form entries, value ≠ .table form entries)

theorem configured_iff_exists_fileOf :
    Configured m directory ↔ ∃ path, FileOf m directory path := by
  constructor
  · intro h
    by_cases hown : HasOwn m directory
    · exact ⟨_, .own hown⟩
    · exact ⟨_, .project hown (h.resolve_left hown)⟩
  · rintro ⟨path, hown | ⟨-, htable⟩⟩
    · exact .inl hown
    · exact .inr htable

theorem ProjectSays.eq {value value' : Toml.Value} (h : ProjectSays m directory value)
    (h' : ProjectSays m directory value') : value = value' := by
  obtain ⟨content, document, held, hdocument, form, tools, htools, hvalue⟩ := h
  obtain ⟨content', document', held', hdocument', form', tools', htools', hvalue'⟩ := h'
  obtain rfl := held.unique held'
  obtain rfl := Except.ok.inj (hdocument.symm.trans hdocument')
  rw [htools, Option.some.injEq, Toml.Value.table.injEq] at htools'
  rw [htools'.2] at hvalue
  exact Option.some.inj (hvalue.symm.trans hvalue')

/-! ## Directories one above the other -/

theorem nearest_cons_of_not (h : ¬ Configured m directory) :
    Nearest m (directory :: rest) found ↔ Nearest m rest found := by
  cases found with
  | none => simp [Nearest, h]
  | some path =>
      constructor
      · rintro ⟨front, nearest, back, hcut, hfront, hfile⟩
        cases front with
        | nil =>
            obtain ⟨rfl, rfl⟩ := List.cons.inj hcut
            exact absurd (configured_iff_exists_fileOf.mpr ⟨path, hfile⟩) h
        | cons below front =>
            obtain ⟨rfl, rfl⟩ := List.cons.inj hcut
            exact ⟨front, nearest, back, rfl, fun e he => hfront e (by simp [he]), hfile⟩
      · rintro ⟨front, nearest, back, rfl, hfront, hfile⟩
        exact ⟨directory :: front, nearest, back, rfl, List.forall_mem_cons.mpr ⟨h, hfront⟩, hfile⟩

theorem nearest_cons_of_configured (h : Configured m directory) :
    Nearest m (directory :: rest) found ↔ ∃ path, found = some path ∧ FileOf m directory path := by
  cases found with
  | none => simp [Nearest, h]
  | some path =>
      constructor
      · rintro ⟨front, nearest, back, hcut, hfront, hfile⟩
        cases front with
        | nil =>
            obtain ⟨rfl, rfl⟩ := List.cons.inj hcut
            exact ⟨path, rfl, hfile⟩
        | cons below front =>
            obtain ⟨rfl, rfl⟩ := List.cons.inj hcut
            exact absurd h (hfront directory (by simp))
      · rintro ⟨_, ⟨rfl⟩, hfile⟩
        exact ⟨[], directory, rest, rfl, by simp, hfile⟩

theorem reached_cons_iff {above : Path} : Reached m (directory :: rest) above ↔
    above = directory ∨ ¬ Configured m directory ∧ Reached m rest above := by
  constructor
  · rintro ⟨front, back, hcut, hfront⟩
    cases front with
    | nil => exact .inl (List.cons.inj hcut).1.symm
    | cons below front =>
        obtain ⟨rfl, rfl⟩ := List.cons.inj hcut
        exact .inr ⟨hfront directory (by simp), front, back, rfl,
          fun e he => hfront e (by simp [he])⟩
  · rintro (rfl | ⟨h, front, back, rfl, hfront⟩)
    · exact ⟨[], rest, rfl, by simp⟩
    · exact ⟨directory :: front, back, rfl, List.forall_mem_cons.mpr ⟨h, hfront⟩⟩

theorem Reached.mem {above : Path} (h : Reached m directories above) : above ∈ directories := by
  obtain ⟨front, back, rfl, -⟩ := h
  simp

theorem child_inj {p q : Path} {name name' : String} (h : p.child name = q.child name') :
    p = q ∧ name = name' := by
  obtain ⟨root, parts⟩ := p
  obtain ⟨root', parts'⟩ := q
  simp only [Path.child, Path.mk.injEq] at h
  obtain ⟨hparts, hname⟩ := List.append_inj' h.2 rfl
  exact ⟨by rw [h.1, hparts], (List.cons.inj hname).1⟩

theorem nodup_parents (p : Path) : (p :: p.parents).Nodup := by
  have hshorter : (p :: p.parents).Pairwise fun q above => above.parts.length < q.parts.length := by
    refine List.pairwise_cons.mpr ⟨?_, ?_⟩
    · intro above habove
      obtain ⟨n, hn, rfl⟩ := List.mem_map.mp habove
      rw [List.mem_reverse, List.mem_range] at hn
      simp only [List.length_take]
      omega
    · refine List.pairwise_map.mpr ?_
      rw [List.pairwise_reverse]
      refine List.Pairwise.imp_of_mem ?_ List.pairwise_lt_range
      intro n n' hn hn' hlt
      rw [List.mem_range] at hn hn'
      simp only [List.length_take]
      omega
  refine hshorter.imp fun hlt heq => ?_
  rw [heq] at hlt
  exact Nat.lt_irrefl _ hlt

/-! ## What a search does in one directory -/

section Steps

variable {α β : Type} {x : Run (StateM Machine) α} {f : α → Run (StateM Machine) β}

theorem fst_bind_of_ok (hx : Quiet x) (hf : ∀ a, Quiet (f a)) {a : α} (h : (on x m).1 = .ok a) :
    (on (x >>= f) m).1 = (on (f a) m).1 := by
  rw [on_bind_of_ok (on_eq_of_fst h)]
  exact (hf a).same m _ (hx.left m)

theorem fst_bind_of_error {failure : Failure} (h : (on x m).1 = .error failure) :
    (on (x >>= f) m).1 = .error failure := by
  rw [on_bind_of_error (on_eq_of_fst h)]

/-- Operations that go alike step by step go alike. -/
theorem fst_bind_congr (hx : Quiet x) (hf : ∀ a, Quiet (f a))
    (hfirst : (on x m').1 = (on x m).1) (hthen : ∀ a, (on (f a) m').1 = (on (f a) m).1) :
    (on (x >>= f) m').1 = (on (x >>= f) m).1 := by
  cases h : (on x m).1 with
  | error failure =>
      rw [h] at hfirst
      rw [fst_bind_of_error h, fst_bind_of_error hfirst]
  | ok a =>
      rw [h] at hfirst
      rw [fst_bind_of_ok hx hf h, fst_bind_of_ok hx hf hfirst, hthen]

end Steps

theorem says_iff {value : Toml.Value} : Says document value ↔
    ((tableAt? document "tool").getD []).lookup tableName.toList = some value := by
  unfold Says tableAt?
  cases htool : document.lookup "tool".toList with
  | none => simp
  | some tool =>
      cases tool with
      | table form tools =>
          constructor
          · rintro ⟨_, _, ⟨rfl⟩, hvalue⟩
            exact hvalue
          · exact fun hvalue => ⟨form, tools, rfl, hvalue⟩
      | _ => simp

theorem tableIn?_project (document : Toml.Entries) (directory : Path) :
    tableIn? document (directory.child projectFile) =
      match ((tableAt? document "tool").getD []).lookup tableName.toList with
      | none => .ok none
      | some (.table _ entries) => .ok (some entries)
      | some _ => .error (.configNoTable (directory.child projectFile)) := by
  have hname : (directory.child projectFile).name = projectFile := by
    simp [Path.name, Path.child]
  have houter : (if (directory.child projectFile).name = projectFile then
      (tableAt? document "tool").getD [] else document) =
        (tableAt? document "tool").getD [] := if_pos hname
  rw [← houter]
  rfl

theorem on_projectIn?_of_document {content : Bytes}
    (held : m.Holds (directory.child projectFile) content)
    (hdocument : documentIn (directory.child projectFile) content = .ok document) :
    (on (projectIn? directory) m).1 =
      match tableIn? document (directory.child projectFile) with
      | .error failure => .error failure
      | .ok table =>
          .ok (if (table.getD []).isEmpty then none else some (directory.child projectFile)) := by
  have hfile := on_isFile_eq_true_iff_holds.mpr ⟨content, held⟩
  have hread : (on (readDocument (directory.child projectFile)) m).1 = .ok document := by
    rw [on_readDocument, held.noNul, held.read]
    exact hdocument
  have htable : (on (tableOf (directory.child projectFile)) m).1 =
      tableIn? document (directory.child projectFile) :=
    fst_bind_of_ok (quiet_readDocument _) (fun _ => .value _) hread
  rw [projectIn?, fst_bind_of_ok (.isFile _) (quiet_project directory) hfile]
  cases h : tableIn? document (directory.child projectFile) with
  | error failure =>
      rw [h] at htable
      exact fst_bind_of_error htable
  | ok table =>
      rw [h] at htable
      exact fst_bind_of_ok (quiet_tableOf _) (fun _ => .pure _) htable

/-- What a search does in a directory. -/
inductive Outcome (m : Machine) (directory : Path) : Prop
  | ends {path : Path} (h : (on (fileIn? directory) m).1 = .ok (some path))
      (file : FileOf m directory path) (sound : ¬ Misleading m directory)
  | goesOn (h : (on (fileIn? directory) m).1 = .ok none) (none : ¬ Configured m directory)
      (sound : ¬ Misleading m directory)
  | passes (h : (on (fileIn? directory) m).1 = .ok none) (passed : Configured m directory)
      (misleading : Misleading m directory)
  | fails {failure : Failure} (h : (on (fileIn? directory) m).1 = .error failure)
      (misleading : Misleading m directory)

/-- A file of its own ends a search. -/
theorem outcome_of_own (hown : HasOwn m directory) : Outcome m directory := by
  obtain ⟨content, held⟩ := hown
  refine .ends (on_fileIn?_of_own held) (.own ⟨content, held⟩) ?_
  rintro (hlong | ⟨hmissing, -⟩ | ⟨hmissing, -⟩ | ⟨hmissing, -, -⟩)
  · exact held.not_overlong hlong
  · exact hmissing ⟨content, held⟩
  · exact hmissing ⟨content, held⟩
  · exact hmissing ⟨content, held⟩

section Project

variable (hshort : ¬ m.Overlong (directory.child ownFile)) (hown : ¬ HasOwn m directory)
  (hsame : (on (fileIn? directory) m).1 = (on (projectIn? directory) m).1)

include hshort hown hsame

/-- Without a file of its own, what counts in a directory is what its project file says. -/
theorem outcome_of_document {content : Bytes}
    (held : m.Holds (directory.child projectFile) content)
    (hdocument : documentIn (directory.child projectFile) content = .ok document) :
    Outcome m directory := by
  have hwritten : ∀ value, Says document value ↔ ProjectSays m directory value := by
    intro value
    refine ⟨fun h => ⟨content, document, held, hdocument, h⟩, ?_⟩
    rintro ⟨content', document', held', hdocument', h⟩
    obtain rfl := held'.unique held
    rw [Except.ok.inj (hdocument.symm.trans hdocument')]
    exact h
  have hresult := hsame.trans (on_projectIn?_of_document held hdocument)
  rw [tableIn?_project] at hresult
  -- What is misleading depends on the one value that the document has for the program.
  have hsound : ∀ {value}, ProjectSays m directory value →
      (∃ form entry entries, value = .table form (entry :: entries)) →
        ¬ Misleading m directory := by
    rintro value hvalue ⟨form, entry, entries, rfl⟩
      (hlong | ⟨-, hlong⟩ | ⟨-, hempty⟩ | ⟨-, hother, hno⟩)
    · exact hshort hlong
    · exact held.not_overlong hlong
    · cases hvalue.eq hempty
    · exact hno form _ (hvalue.eq hother).symm
  cases hlookup : ((tableAt? document "tool").getD []).lookup tableName.toList with
  | none =>
      rw [hlookup] at hresult
      have hsilent : ∀ value, ¬ ProjectSays m directory value := by
        intro value hvalue
        rw [says_iff.mp ((hwritten value).mpr hvalue)] at hlookup
        cases hlookup
      refine .goesOn hresult ?_ ?_
      · rintro (h | ⟨form, entries, hvalue⟩)
        · exact hown h
        · exact hsilent _ hvalue
      · rintro (hlong | ⟨-, hlong⟩ | ⟨-, hempty⟩ | ⟨-, hother, -⟩)
        · exact hshort hlong
        · exact held.not_overlong hlong
        · exact hsilent _ hempty
        · exact hsilent _ hother
  | some value =>
      have hvalue := (hwritten value).mp (says_iff.mpr hlookup)
      rw [hlookup] at hresult
      cases value with
      | table form entries =>
          cases entries with
          | nil =>
              exact .passes hresult (.inr ⟨form, [], hvalue⟩) (.emptyTable hown hvalue)
          | cons entry entries =>
              exact .ends hresult (.project hown ⟨form, _, hvalue⟩)
                (hsound hvalue ⟨form, entry, entries, rfl⟩)
      | _ => exact .fails hresult (.noTable hown hvalue (by simp))

theorem outcome_of_no_own (parses : Parses m (directory.child projectFile)) :
    Outcome m directory := by
  rcases isFile_cases (directory.child projectFile) m with
    hlong | ⟨⟨content, held⟩, hfile⟩ | ⟨hmissing, hfile⟩
  · have hfails := on_isFile_eq_error_iff.mpr ⟨hlong, rfl⟩
    exact .fails (hsame.trans (fst_bind_of_error hfails)) (.projectTooLong hown hlong)
  · obtain ⟨document, hdocument⟩ := parses content held
    exact outcome_of_document hshort hown hsame held hdocument
  · have hsilent : ∀ value, ¬ ProjectSays m directory value := by
      rintro value ⟨content, document, held, -⟩
      exact hmissing content held
    refine .goesOn ?_ ?_ ?_
    · rw [hsame, projectIn?, fst_bind_of_ok (.isFile _) (quiet_project directory) hfile]
      rfl
    · rintro (h | ⟨form, entries, hvalue⟩)
      · exact hown h
      · exact hsilent _ hvalue
    · rintro (hlong | ⟨-, hlong⟩ | ⟨-, hempty⟩ | ⟨-, hother, -⟩)
      · exact hshort hlong
      · rw [on_isFile_eq_error_iff.mpr ⟨hlong, rfl⟩] at hfile
        cases hfile
      · exact hsilent _ hempty
      · exact hsilent _ hother

end Project

theorem outcome (parses : Parses m (directory.child projectFile)) : Outcome m directory := by
  rcases isFile_cases (directory.child ownFile) m with
    hlong | ⟨hown, -⟩ | ⟨hmissing, hfile⟩
  · have hfails := on_isFile_eq_error_iff.mpr ⟨hlong, rfl⟩
    have hsame := congrArg (fun x => (on x m).1) (fileIn?_eq directory)
    exact .fails (hsame.trans (fst_bind_of_error hfails)) (.ownTooLong hlong)
  · exact outcome_of_own hown
  · have hown : ¬ HasOwn m directory := fun ⟨content, held⟩ => hmissing content held
    have hshort : ¬ m.Overlong (directory.child ownFile) := by
      intro hlong
      rw [on_isFile_eq_error_iff.mpr ⟨hlong, rfl⟩] at hfile
      cases hfile
    refine outcome_of_no_own hshort hown ?_ parses
    rw [fileIn?_eq, fst_bind_of_ok (.isFile _) (quiet_own directory) hfile]
    rfl

/-! ## Searches -/

/-- What a search finds is a file of one of the directories. -/
theorem exists_child_of_firstIn? {path : Path}
    (h : (on (firstIn? directories) m).1 = .ok (some path)) :
    ∃ directory ∈ directories, ∃ name, path = directory.child name := by
  induction directories with
  | nil => cases h
  | cons directory rest ih =>
      rcases on_firstIn?_cons_eq_some_iff.mp h with hhere | ⟨-, hrest⟩
      · rcases own_or_project_of_fileIn? hhere with rfl | ⟨rfl, -⟩
        · exact ⟨directory, by simp, ownFile, rfl⟩
        · exact ⟨directory, by simp, projectFile, rfl⟩
      · obtain ⟨above, habove, hname⟩ := ih hrest
        exact ⟨above, by simp [habove], hname⟩

theorem FileOf.exists_child {path : Path} (h : FileOf m directory path) :
    ∃ name, path = directory.child name := by
  cases h with
  | own => exact ⟨ownFile, rfl⟩
  | project => exact ⟨projectFile, rfl⟩

theorem on_firstIn?_cons_of_none (h : (on (fileIn? directory) m).1 = .ok none) :
    (on (firstIn? (directory :: rest)) m).1 = (on (firstIn? rest) m).1 := by
  rw [firstIn?_cons]
  exact fst_bind_of_ok (quiet_fileIn? directory) (quiet_goOn rest) h

theorem on_firstIn?_cons_of_some {path : Path}
    (h : (on (fileIn? directory) m).1 = .ok (some path)) :
    (on (firstIn? (directory :: rest)) m).1 = .ok (some path) := by
  rw [firstIn?_cons]
  exact fst_bind_of_ok (quiet_fileIn? directory) (quiet_goOn rest) h

/--
A search finds the file of the first directory that has a configuration, unless one that
is not above it is misleading.
-/
theorem on_firstIn?_nearest_iff (hnodup : directories.Nodup)
    (parses : ∀ directory ∈ directories, Parses m (directory.child projectFile)) :
    (∃ found, (on (firstIn? directories) m).1 = .ok found ∧ Nearest m directories found) ↔
      ∀ directory, Reached m directories directory → ¬ Misleading m directory := by
  induction directories with
  | nil =>
      refine iff_of_true ⟨none, rfl, by simp [Nearest]⟩ fun directory h => ?_
      exact absurd h.mem (List.not_mem_nil)
  | cons directory rest ih =>
      obtain ⟨hfresh, hnodup⟩ := List.nodup_cons.mp hnodup
      have ih := ih hnodup fun above habove => parses above (by simp [habove])
      simp only [reached_cons_iff]
      cases outcome (parses directory (by simp)) with
      | ends h file sound =>
          have hconfigured := configured_iff_exists_fileOf.mpr ⟨_, file⟩
          refine iff_of_true ⟨_, on_firstIn?_cons_of_some h, ?_⟩ ?_
          · exact (nearest_cons_of_configured hconfigured).mpr ⟨_, rfl, file⟩
          · rintro above (rfl | ⟨hnot, -⟩)
            · exact sound
            · exact absurd hconfigured hnot
      | goesOn h hnone sound =>
          simp only [on_firstIn?_cons_of_none h, nearest_cons_of_not hnone, ih]
          constructor
          · rintro hrest above (rfl | ⟨-, habove⟩)
            · exact sound
            · exact hrest above habove
          · exact fun hall above habove => hall above (.inr ⟨hnone, habove⟩)
      | passes h hpassed misleading =>
          refine iff_of_false ?_ fun hall => hall directory (.inl rfl) misleading
          rintro ⟨found, hfound, hnearest⟩
          obtain ⟨path, rfl, file⟩ := (nearest_cons_of_configured hpassed).mp hnearest
          rw [on_firstIn?_cons_of_none h] at hfound
          obtain ⟨above, habove, name, hname⟩ := exists_child_of_firstIn? hfound
          obtain ⟨name', hname'⟩ := file.exists_child
          obtain ⟨rfl, -⟩ := child_inj (hname.symm.trans hname')
          exact hfresh habove
      | fails h misleading =>
          refine iff_of_false ?_ fun hall => hall directory (.inl rfl) misleading
          rintro ⟨found, hfound, -⟩
          rw [firstIn?_cons, fst_bind_of_error h] at hfound
          cases hfound

/-! ## What a search depends on -/

theorem overlong_iff_readFile {path : Path} : m.Overlong path ↔
    path.hasNul = false ∧ m.store.readFile m.here path = .error .nameTooLong := by
  rw [Machine.overlong_iff, Store.readFile, Store.find]
  refine and_congr_right fun _ => ?_
  cases hlocate : m.store.locate m.here path with
  | error cause => simp
  | ok place =>
      cases hnode : m.store.node? place with
      | none => simp [hnode]
      | some node => cases node <;> simp [hnode]

section SameFile

variable {path : Path} (h : m'.store.readFile m'.here path = m.store.readFile m.here path)

include h

theorem on_isFile_congr : (on (Files.isFile path) m').1 = (on (Files.isFile path) m).1 := by
  rcases isFile_cases path m with hlong | ⟨⟨content, held⟩, hfile⟩ | ⟨hmissing, hfile⟩
  · have hlong' : m'.Overlong path := by
      rw [overlong_iff_readFile, h]
      exact overlong_iff_readFile.mp hlong
    rw [on_isFile_eq_error_iff.mpr ⟨hlong, rfl⟩, on_isFile_eq_error_iff.mpr ⟨hlong', rfl⟩]
  · rw [hfile]
    exact on_isFile_eq_true_iff_holds.mpr ⟨content, held.noNul, h.trans held.read⟩
  · rw [hfile]
    rcases isFile_cases path m' with hlong' | ⟨⟨content, held'⟩, -⟩ | ⟨-, hfile'⟩
    · have hlong : m.Overlong path := by
        rw [overlong_iff_readFile, ← h]
        exact overlong_iff_readFile.mp hlong'
      rw [on_isFile_eq_error_iff.mpr ⟨hlong, rfl⟩] at hfile
      cases hfile
    · exact absurd ⟨held'.noNul, h.symm.trans held'.read⟩ (hmissing content)
    · exact hfile'

theorem on_readDocument_congr : (on (readDocument path) m').1 = (on (readDocument path) m).1 := by
  rw [on_readDocument, on_readDocument, h]

end SameFile

theorem on_fileIn?_congr
    (hown : m'.store.readFile m'.here (directory.child ownFile) =
      m.store.readFile m.here (directory.child ownFile))
    (hproject : m'.store.readFile m'.here (directory.child projectFile) =
      m.store.readFile m.here (directory.child projectFile)) :
    (on (fileIn? directory) m').1 = (on (fileIn? directory) m).1 := by
  have htable : (on (tableOf (directory.child projectFile)) m').1 =
      (on (tableOf (directory.child projectFile)) m).1 :=
    fst_bind_congr (quiet_readDocument _) (fun _ => .value _) (on_readDocument_congr hproject)
      fun _ => rfl
  rw [fileIn?_eq]
  refine fst_bind_congr (.isFile _) (quiet_own directory) (on_isFile_congr hown) fun own => ?_
  cases own with
  | true => rfl
  | false =>
      refine fst_bind_congr (.isFile _) (quiet_project directory) (on_isFile_congr hproject)
        fun project => ?_
      cases project with
      | false => rfl
      | true => exact fst_bind_congr (quiet_tableOf _) (fun _ => .pure _) htable fun _ => rfl

/--
A machine has the configuration files of another in all directories up to the first one
that has a configuration there; above it anything may be different.
-/
structure SameUpTo (m m' : Machine) (directories : List Path) : Prop where
  here : m'.here = m.here
  files : ∀ directory, Reached m directories directory → ∀ name ∈ [ownFile, projectFile],
    m'.store.readFile m'.here (directory.child name) =
      m.store.readFile m.here (directory.child name)

/-- Without misleading directories, a search does not depend on what is above. -/
theorem on_firstIn?_congr
    (parses : ∀ directory ∈ directories, Parses m (directory.child projectFile))
    (sound : ∀ directory, Reached m directories directory → ¬ Misleading m directory)
    (same : SameUpTo m m' directories) :
    (on (firstIn? directories) m').1 = (on (firstIn? directories) m).1 := by
  induction directories with
  | nil => rfl
  | cons directory rest ih =>
      have hhere : Reached m (directory :: rest) directory := reached_cons_iff.mpr (.inl rfl)
      have hstep := on_fileIn?_congr (same.files directory hhere ownFile (by simp))
        (same.files directory hhere projectFile (by simp))
      cases outcome (parses directory (by simp)) with
      | ends h =>
          rw [on_firstIn?_cons_of_some h, on_firstIn?_cons_of_some (hstep.trans h)]
      | goesOn h hnone =>
          have hfurther : ∀ above, Reached m rest above → Reached m (directory :: rest) above :=
            fun above habove => reached_cons_iff.mpr (.inr ⟨hnone, habove⟩)
          rw [on_firstIn?_cons_of_none h, on_firstIn?_cons_of_none (hstep.trans h)]
          exact ih (fun above habove => parses above (by simp [habove]))
            (fun above habove => sound above (hfurther above habove))
            ⟨same.here, fun above habove => same.files above (hfurther above habove)⟩
      | passes _ _ misleading => exact absurd misleading (sound directory hhere)
      | fails _ misleading => exact absurd misleading (sound directory hhere)

/-! ## Discovery -/

/-- The directories that a search looks into, from where it starts up to the root. -/
def upward (m : Machine) (start : Option Path) : List Path :=
  origin m start :: (origin m start).parents

theorem on_discover?_of_noNul {start : Option Path} (h : (origin m start).hasNul = false) :
    (on (discover? start) m).1 = (on (firstIn? (upward m start)) m).1 := by
  rw [on_discover?, h]
  rfl

/--
Where the project files on the way are documents, discovery finds the nearest configuration
file whatever the directories above it hold, unless a directory that is not above the first
one with a configuration is misleading.  The path of a directory that is there holds no NUL.
-/
theorem discovers_nearest_iff (start : Option Path) (m : Machine)
    (noNul : (origin m start).hasNul = false)
    (parses : ∀ directory ∈ upward m start, Parses m (directory.child projectFile)) :
    (∃ found, (on (discover? start) m).1 = .ok found ∧ Nearest m (upward m start) found ∧
      ∀ m', SameUpTo m m' (upward m start) → (on (discover? start) m').1 = .ok found) ↔
    ∀ directory, Reached m (upward m start) directory → ¬ Misleading m directory := by
  have hnodup : (upward m start).Nodup := nodup_parents _
  rw [← on_firstIn?_nearest_iff hnodup parses, on_discover?_of_noNul noNul]
  constructor
  · rintro ⟨found, hfound, hnearest, -⟩
    exact ⟨found, hfound, hnearest⟩
  · rintro ⟨found, hfound, hnearest⟩
    refine ⟨found, hfound, hnearest, fun m' same => ?_⟩
    have horigin : origin m' start = origin m start := by rw [origin, origin, same.here]
    have hupward : upward m' start = upward m start := by rw [upward, upward, horigin]
    have sound := (on_firstIn?_nearest_iff hnodup parses).mp ⟨found, hfound, hnearest⟩
    rw [on_discover?_of_noNul (by rw [horigin]; exact noNul), hupward,
      on_firstIn?_congr parses sound same]
    exact hfound

/-! ### Machines with project files -/

theorem parses_of_isOk {path : Path} {content : Bytes} (held : m.Holds path content)
    (h : (documentIn path content).isOk = true) : Parses m path := by
  intro content' held'
  obtain rfl := held.unique held'
  cases hdocument : documentIn path content' with
  | ok document => exact ⟨document, rfl⟩
  | error failure =>
      rw [hdocument] at h
      cases h

theorem not_holds_of_error {path : Path} {cause : OsFault.Cause}
    (h : m.store.readFile m.here path = .error cause) (content : Bytes) :
    ¬ m.Holds path content := by
  intro held
  rw [held.read] at h
  cases h

/-- A directory with a table in its project file, below a root with a file of its own. -/
def siteMachine : Machine :=
  Machine.start ⟨[(["site"], .directory),
    (["site", projectFile], .file "[tool.provmark]\nstrategy = 'sidecar'\n".toUTF8.toList),
    ([ownFile], .file "[provmark]\n".toUTF8.toList)]⟩ [] [.sample]

theorem discovers_nearest_site :
    (origin siteMachine (some (.ofString "site"))).hasNul = false ∧
      (∀ directory ∈ upward siteMachine (some (.ofString "site")),
        Parses siteMachine (directory.child projectFile)) ∧
      ∃ found, (on (discover? (some (.ofString "site"))) siteMachine).1 = .ok found ∧
        Nearest siteMachine (upward siteMachine (some (.ofString "site"))) found ∧
        ∀ m', SameUpTo siteMachine m' (upward siteMachine (some (.ofString "site"))) →
          (on (discover? (some (.ofString "site"))) m').1 = .ok found := by
  have hupward : upward siteMachine (some (.ofString "site")) =
      [⟨.slash, ["site"]⟩, ⟨.slash, []⟩] := by rfl
  have hnul : (origin siteMachine (some (.ofString "site"))).hasNul = false := by rfl
  have hsite : Parses siteMachine (Path.child ⟨.slash, ["site"]⟩ projectFile) :=
    parses_of_isOk ⟨by rfl, rfl⟩ (by decide +kernel)
  have hroot : Parses siteMachine (Path.child ⟨.slash, []⟩ projectFile) := fun content held =>
    absurd held (not_holds_of_error rfl content)
  have hparses : ∀ directory ∈ upward siteMachine (some (.ofString "site")),
      Parses siteMachine (directory.child projectFile) := by
    rw [hupward]
    intro directory hdirectory
    rcases List.mem_cons.mp hdirectory with rfl | hdirectory
    · exact hsite
    · obtain rfl := List.mem_singleton.mp hdirectory
      exact hroot
  have hfound : (on (fileIn? ⟨.slash, ["site"]⟩) siteMachine).1 =
      .ok (some ⟨.slash, ["site", projectFile]⟩) := eq_ok_of_toOption (by decide +kernel)
  refine ⟨hnul, hparses, (discovers_nearest_iff _ _ hnul hparses).mpr ?_⟩
  rw [hupward]
  intro directory hreached
  cases outcome hsite with
  | ends h file sound =>
      rcases reached_cons_iff.mp hreached with rfl | ⟨hnot, -⟩
      · exact sound
      · exact absurd (configured_iff_exists_fileOf.mpr ⟨_, file⟩) hnot
  | goesOn h => cases hfound.symm.trans h
  | passes h => cases hfound.symm.trans h
  | fails h => cases hfound.symm.trans h

/-- A machine with a project file whose table for the program is empty. -/
def emptyTableMachine : Machine :=
  Machine.start ⟨[([projectFile], .file "[tool.provmark]\n".toUTF8.toList)]⟩ [] [.sample]

/-- An empty table is passed over, although it is the nearest configuration. -/
theorem discovery_passes_emptyTable :
    (origin emptyTableMachine none).hasNul = false ∧
      (∀ directory ∈ upward emptyTableMachine none,
        Parses emptyTableMachine (directory.child projectFile)) ∧
      Nearest emptyTableMachine (upward emptyTableMachine none) (some ⟨.slash, [projectFile]⟩) ∧
      (on (discover? none) emptyTableMachine).1 = .ok none := by
  have hupward : upward emptyTableMachine none = [⟨.slash, []⟩] := by rfl
  have held : emptyTableMachine.Holds (Path.child ⟨.slash, []⟩ projectFile)
      "[tool.provmark]\n".toUTF8.toList := ⟨by rfl, rfl⟩
  have hdocument : documentIn (Path.child ⟨.slash, []⟩ projectFile)
      "[tool.provmark]\n".toUTF8.toList =
        .ok [("tool".toList, .table .implied [("provmark".toList, .table .header [])])] := by
    with_unfolding_all rfl
  have hown : ¬ HasOwn emptyTableMachine ⟨.slash, []⟩ := fun ⟨content, held⟩ =>
    not_holds_of_error rfl content held
  have htable : HasTable emptyTableMachine ⟨.slash, []⟩ :=
    ⟨.header, [], _, _, held, hdocument, .implied, _, rfl, rfl⟩
  refine ⟨by rfl, ?_, ?_, eq_ok_of_toOption (by decide +kernel)⟩
  · rw [hupward]
    intro directory hdirectory
    obtain rfl := List.mem_singleton.mp hdirectory
    exact parses_of_isOk held (by rw [hdocument]; rfl)
  · rw [hupward]
    exact ⟨[], _, [], rfl, by simp, .project hown htable⟩

end PageManifest.Config
