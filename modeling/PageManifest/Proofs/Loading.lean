import PageManifest.Proofs.Failing

/-! # Loading configurations

A configuration is loaded in steps: a file is chosen, its table is laid over the
standard configuration, and single settings over that.  Nothing but looking at files
is done on the way, so loading fails where one of these steps fails by itself.  Not
every failure on the way is told as a fault of the configuration.
-/

namespace PageManifest.Config

open Run

variable {m m' : Machine} {c : Config} {path : Path} {start : Option Path} {search : Bool}
  {strategy encoding : Option String} {entries : Toml.Entries} {source : Option Path}

/-! ## Steps of loading -/

/-- The table that the document at a path has for the program. -/
def tableOf (path : Path) : Run (StateM Machine) (Option Toml.Entries) := do
  let document ← readDocument path
  Files.value (tableIn? document path)

/-- The file that a configuration is read from, if any. -/
def chosen (path start : Option Path) (search : Bool) : Run (StateM Machine) (Option Path) :=
  match path with
  | some path => pure (some path)
  | none => if search then discover? start else pure none

/-- The standard configuration with what the table of a file says laid over it. -/
def laid (path : Path) : Option Toml.Entries → Run (StateM Machine) Config
  | none => do
      Files.noteAll [Log.Record.info "provmark.config.model"
        ("No [" ++ tableName ++ "] table in " ++ path.toString ++ "; using defaults")]
      pure standard
  | some entries => do
      Files.noteAll (notices entries (some path))
      Files.value (standard.withEntries entries (some path))

/-- The configuration that a file makes of the standard one. -/
def ofFile (path : Path) : Run (StateM Machine) Config := do
  if ← Files.isFile path then tableOf path >>= laid path
  else throw (.configMissing path)

/-- The configuration before single settings are laid over it. -/
def base : Option Path → Run (StateM Machine) Config
  | none => pure standard
  | some path => ofFile path

theorem load_some (path : Path) (start : Option Path) (search : Bool)
    (strategy encoding : Option String) :
    (load (some path) start search strategy encoding : Run (StateM Machine) Config) =
      ofFile path >>= fun c => Files.value (c.withSettings strategy encoding) := by
  unfold load
  simp only [ofFile, tableOf, bind_assoc, pure_bind]
  refine bind_congr fun present => ?_
  cases present with
  | false => rfl
  | true =>
      simp only [if_true, bind_assoc]
      refine bind_congr fun document => bind_congr fun table => ?_
      cases table with
      | none => rfl
      | some entries => simp only [laid, bind_assoc]

/-- Loading is choosing a file, reading it and laying single settings over what it says. -/
theorem load_eq (path start : Option Path) (search : Bool) (strategy encoding : Option String) :
    (load path start search strategy encoding : Run (StateM Machine) Config) =
      chosen path start search >>= fun found => base found >>= fun c =>
        Files.value (c.withSettings strategy encoding) := by
  cases path with
  | some path => exact load_some path start search strategy encoding
  | none =>
      cases search with
      | false => rfl
      | true =>
          unfold load
          simp only [if_true]
          refine bind_congr fun found => ?_
          cases found with
          | none => rfl
          | some path => exact load_some path start true strategy encoding

/-- The project file of a directory, if it has a table for the program with anything in it. -/
def projectIn? (directory : Path) : Run (StateM Machine) (Option Path) := do
  let project := directory.child projectFile
  if ← Files.isFile project then do
    let table ← tableOf project
    pure (if (table.getD []).isEmpty then none else some project)
  else pure none

theorem fileIn?_eq (directory : Path) :
    (fileIn? directory : Run (StateM Machine) (Option Path)) =
      Files.isFile (directory.child ownFile) >>= fun own =>
        if own then pure (some (directory.child ownFile)) else projectIn? directory := by
  unfold fileIn? projectIn?
  refine bind_congr fun own => ?_
  cases own with
  | true => rfl
  | false =>
      refine bind_congr fun project => ?_
      cases project with
      | false => rfl
      | true =>
          simp only [if_true, tableOf, bind_assoc]
          refine bind_congr fun document => bind_congr fun table => ?_
          rcases table with _ | _ | ⟨entry, entries⟩ <;> rfl

/-! ## Reading a document -/

/-- What reading the document at a path comes to. -/
def told (path : Path) : Except Toml.Fault Toml.Entries → Except Failure Toml.Entries
  | .ok entries => .ok entries
  | .error .malformed => .error (.configMalformed path)
  | .error (.keyTwice key) => .error (.configKeyTwice (String.ofList key))
  | .error .tableTwice => .error .configTableTwice

/-- What the octets at a path say as a document. -/
def documentIn (path : Path) (content : Bytes) : Except Failure Toml.Entries :=
  match (Charset.codec .utf8).decode content with
  | .error fault => .error (.charset fault)
  | .ok t => told path (Toml.read (withLineFeeds t))

theorem on_readDocument (path : Path) (m : Machine) : on (readDocument path) m =
    (if path.hasNul then .error .nulInPath
      else match m.store.readFile m.here path with
        | .error cause => .error (.configUnreadable path (OsFault.on cause path.toString))
        | .ok content => documentIn path content, m) := by
  unfold readDocument
  rw [on_bind, on_tryCatch, on_read]
  cases path.hasNul with
  | true => rfl
  | false =>
      cases m.store.readFile m.here path with
      | error cause => rfl
      | ok content =>
          simp only [Bool.false_eq_true, if_false, documentIn]
          rw [on_bind, on_value]
          cases (Charset.codec .utf8).decode content with
          | error fault => rfl
          | ok t =>
              have hdecoded : (Except.ok t : Except Charset.Fault Text).mapError Failure.charset =
                  .ok t := rfl
              rw [hdecoded]
              dsimp only
              generalize Toml.read (withLineFeeds t) = r
              rcases r with (_ | _ | _) | _ <;> rfl

theorem quiet_readDocument (path : Path) :
    Quiet (readDocument path : Run (StateM Machine) Toml.Entries) := by
  refine .of_unchanged (fun m => by rw [on_readDocument]) fun m m' hstore hhere => ?_
  rw [on_readDocument, on_readDocument, hstore, hhere]

theorem quiet_tableOf (path : Path) : Quiet (tableOf path) :=
  (quiet_readDocument path).bind fun _ => .value _

theorem quiet_project (directory : Path) (project : Bool) :
    Quiet (if project then do
        let table ← tableOf (directory.child projectFile)
        pure (if (table.getD []).isEmpty then none else some (directory.child projectFile))
      else pure none : Run (StateM Machine) (Option Path)) := by
  cases project with
  | true => exact (quiet_tableOf _).bind fun _ => .pure _
  | false => exact .pure _

theorem quiet_projectIn? (directory : Path) : Quiet (projectIn? directory) :=
  .bind (.isFile _) (quiet_project directory)

theorem quiet_own (directory : Path) (own : Bool) :
    Quiet (if own then pure (some (directory.child ownFile)) else projectIn? directory :
      Run (StateM Machine) (Option Path)) := by
  cases own with
  | true => exact .pure _
  | false => exact quiet_projectIn? directory

theorem quiet_fileIn? (directory : Path) :
    Quiet (fileIn? directory : Run (StateM Machine) (Option Path)) := by
  rw [fileIn?_eq]
  exact .bind (.isFile _) (quiet_own directory)

theorem quiet_firstIn? (directories : List Path) :
    Quiet (firstIn? directories : Run (StateM Machine) (Option Path)) := by
  induction directories with
  | nil => exact .pure _
  | cons directory rest ih =>
      refine (quiet_fileIn? directory).bind fun found => ?_
      split
      · exact .pure _
      · exact ih

/-- The directory in which a search starts. -/
def origin (m : Machine) (start : Option Path) : Path :=
  (start.getD ⟨.slash, m.here⟩).absolute ⟨.slash, m.here⟩

theorem on_discover? (start : Option Path) (m : Machine) :
    on (discover? start) m = if (origin m start).hasNul then (.error .nulInPath, m)
      else on (firstIn? (origin m start :: (origin m start).parents)) m := by
  unfold discover?
  rw [on_bind_of_ok (on_lift _ m)]
  change on (if (origin m start).hasNul then throw .nulInPath
    else firstIn? (origin m start :: (origin m start).parents)) m = _
  cases (origin m start).hasNul <;> rfl

theorem quiet_discover? (start : Option Path) :
    Quiet (discover? start : Run (StateM Machine) (Option Path)) := by
  constructor
  · intro m
    change m.Left (on (discover? start) m).2 m.store
    rw [on_discover?]
    split
    · exact .refl m
    · exact (quiet_firstIn? _).left m
  · intro m m' left
    have horigin : origin m' start = origin m start := by rw [origin, origin, left.here]
    change (on (discover? start) m').1 = (on (discover? start) m).1
    rw [on_discover?, on_discover?, horigin]
    split
    · rfl
    · exact (quiet_firstIn? _).same m m' left

theorem quiet_laid (path : Path) (table : Option Toml.Entries) : Quiet (laid path table) := by
  cases table with
  | none => exact .bind (.noteAll _) fun _ => .pure _
  | some entries => exact .bind (.noteAll _) fun _ => .value _

theorem quiet_present (path : Path) (present : Bool) :
    Quiet (if present then tableOf path >>= laid path else throw (.configMissing path) :
      Run (StateM Machine) Config) := by
  cases present with
  | false => exact .throw _
  | true => exact (quiet_tableOf path).bind (quiet_laid path)

theorem quiet_base (found : Option Path) : Quiet (base found) := by
  cases found with
  | none => exact .pure _
  | some path => exact .bind (.isFile path) (quiet_present path)

theorem quiet_chosen (path start : Option Path) (search : Bool) :
    Quiet (chosen path start search) := by
  cases path with
  | some path => exact .pure _
  | none =>
      cases search with
      | false => exact .pure _
      | true => exact quiet_discover? start

theorem quiet_load (path start : Option Path) (search : Bool) (strategy encoding : Option String) :
    Quiet (load path start search strategy encoding : Run (StateM Machine) Config) := by
  rw [load_eq]
  exact .bind (quiet_chosen path start search) fun found =>
    .bind (quiet_base found) fun _ => .value _

/-! ## Failures that are not told as faults of the configuration -/

/-- A failure that is not told as a fault of the configuration. -/
def Foreign (failure : Failure) : Prop :=
  failure.category ≠ .configuration

instance : DecidablePred Foreign :=
  fun failure => inferInstanceAs (Decidable (failure.category ≠ .configuration))

/-- Octets that are no text, or the text of a document that says something twice. -/
def Garbled (content : Bytes) : Prop :=
  (∃ fault, (Charset.codec .utf8).decode content = .error fault) ∨
    ∃ t fault, (Charset.codec .utf8).decode content = .ok t ∧
      Toml.read (withLineFeeds t) = .error fault ∧ fault ≠ .malformed

theorem foreign_charset (fault : Charset.Fault) : Foreign (.charset fault) := by
  cases fault <;> simp [Foreign, Failure.category, Charset.Fault.category]

theorem foreign_told_iff {r : Except Toml.Fault Toml.Entries} :
    Refuses Foreign (told path r) ↔ ∃ fault, r = .error fault ∧ fault ≠ .malformed := by
  rcases r with (_ | _ | _) | _ <;> simp [told, Foreign, Failure.category]

theorem foreign_documentIn_iff {content : Bytes} :
    Refuses Foreign (documentIn path content) ↔ Garbled content := by
  unfold documentIn Garbled
  cases (Charset.codec .utf8).decode content with
  | error fault => simp [foreign_charset]
  | ok t => simp [foreign_told_iff]

theorem foreign_readDocument_iff {content : Bytes} (h : m.Holds path content) :
    FailsFor Foreign (readDocument path : Run (StateM Machine) Toml.Entries) m ↔
      Garbled content := by
  change Refuses Foreign (on (readDocument path) m).1 ↔ _
  rw [on_readDocument, h.noNul, h.read]
  exact foreign_documentIn_iff

theorem not_foreign_tableIn? (document : Toml.Entries) :
    ¬ Refuses Foreign (tableIn? document path) := by
  unfold tableIn?
  dsimp only
  generalize (if path.name = projectFile then (tableAt? document "tool").getD []
    else document) = outer
  split <;> simp [Foreign, Failure.category]

theorem foreign_tableOf_iff {content : Bytes} (h : m.Holds path content) :
    FailsFor Foreign (tableOf path) m ↔ Garbled content := by
  rw [tableOf, FailsFor.bind_iff (quiet_readDocument path) fun _ => .value _,
    foreign_readDocument_iff h]
  simp [not_foreign_tableIn?]

theorem foreign_isFile_iff :
    FailsFor Foreign (Files.isFile path : Run (StateM Machine) Bool) m ↔ m.Overlong path := by
  rw [failsFor_isFile_iff]
  refine and_iff_left ?_
  simp [Foreign, Failure.category, OsFault.category, OsFault.on, OsFault.Cause.code]

/-! ### Values -/

theorem not_foreign_readStrategy (name : String) :
    ¬ Refuses Foreign (readStrategy source name) := by
  unfold readStrategy
  split <;> simp [Foreign, Failure.category]

/-- The name of an encoding is read, or refused as a fault, unless it holds a NUL. -/
theorem foreign_readEncoding_iff {name : Text} :
    Refuses Foreign (readEncoding source name) ↔ '\x00' ∈ name := by
  have htrim : '\x00' ∈ Text.trim name ↔ '\x00' ∈ name :=
    ⟨Text.mem_of_mem_trim, Text.mem_trim (by decide)⟩
  rw [readEncoding, ← htrim]
  cases hempty : (Text.trim name).isEmpty with
  | true =>
      rw [List.isEmpty_iff] at hempty
      simp [hempty, Foreign, Failure.category]
  | false =>
      by_cases hnul : '\x00' ∈ Text.trim name
      · simp [hnul, foreign_charset]
      · cases hname : Charset.canonicalName? (String.ofList (Text.trim name)) <;>
          simp [hnul, Foreign, Failure.category]

theorem not_foreign_readPlaceholder (t : Text) : ¬ Refuses Foreign (readPlaceholder source t) := by
  unfold readPlaceholder
  split <;> simp [Foreign, Failure.category]

theorem not_foreign_readTempPrefix (t : Text) : ¬ Refuses Foreign (readTempPrefix source t) := by
  unfold readTempPrefix
  split <;> simp [Foreign, Failure.category]

theorem readStrategy_eq_ok_iff {name : String} {s : Strategy} :
    readStrategy source name = .ok s ↔ Strategy.ofName? name = some s := by
  unfold readStrategy
  cases Strategy.ofName? name <;> simp

/-! ### Tables -/

/-- Takes what a key says, a text, into a configuration. -/
def laying {α : Type} (key : String) (fault : ConfigFault) (read : Text → Except Failure α)
    (put : Config → α → Config) (entries : Toml.Entries) (source : Option Path) (c : Config) :
    Except Failure Config :=
  setting entries key (fun v => do
    let t ← textOf fault source v
    return put c (← read t)) c

theorem withEntries_eq (c : Config) (entries : Toml.Entries) (source : Option Path) :
    c.withEntries entries source =
      (laying "strategy" (.noString "strategy") (fun t => readStrategy source (String.ofList t))
          (fun c s => { c with strategy := s }) entries source c >>= fun c =>
        laying "encoding" .emptyEncoding (readEncoding source)
          (fun c name => { c with encoding := name }) entries source c >>= fun c =>
        laying "placeholder" .badPlaceholder (readPlaceholder source)
          (fun c payload => { c with placeholder := payload }) entries source c >>= fun c =>
        laying "temp_prefix" .badTempPrefix (readTempPrefix source)
          (fun c start => { c with tempPrefix := start }) entries source c >>= fun c =>
        .ok { c with source := source <|> c.source }) := rfl

section Laying

variable {α : Type} {key : String} {fault : ConfigFault} {read : Text → Except Failure α}
  {put : Config → α → Config}

theorem laying_of_missing (h : entries.lookup key.toList = none) :
    laying key fault read put entries source c = .ok c := by
  rw [laying, setting, h]

theorem laying_of_text {t : Text} (h : entries.lookup key.toList = some (.text t)) :
    laying key fault read put entries source c = put c <$> read t := by
  rw [laying, setting, h]
  rfl

theorem laying_of_other {v : Toml.Value} (h : entries.lookup key.toList = some v)
    (hv : ∀ t, v ≠ .text t) :
    laying key fault read put entries source c = .error (.badConfig fault source) := by
  rw [laying, setting, h]
  cases v with
  | text t => exact absurd rfl (hv t)
  | _ => rfl

theorem laying_cases (key : String) (entries : Toml.Entries) :
    entries.lookup key.toList = none ∨ (∃ t, entries.lookup key.toList = some (.text t)) ∨
      ∃ v, entries.lookup key.toList = some v ∧ ∀ t, v ≠ .text t := by
  rcases entries.lookup key.toList with _ | v
  · exact .inl rfl
  · cases v with
    | text t => exact .inr (.inl ⟨t, rfl⟩)
    | _ => exact .inr (.inr ⟨_, rfl, by simp⟩)

theorem foreign_laying_iff : Refuses Foreign (laying key fault read put entries source c) ↔
    ∃ t, entries.lookup key.toList = some (.text t) ∧ Refuses Foreign (read t) := by
  rcases laying_cases key entries with h | ⟨t, h⟩ | ⟨v, h, hv⟩
  · simp [laying_of_missing h, h]
  · simp [laying_of_text h, h, Refuses.map_iff]
  · rw [laying_of_other h hv, h]
    simp [Foreign, Failure.category, hv]

theorem exists_laying_iff :
    (∃ c', laying key fault read put entries source c = .ok c') ↔
      ∀ v, entries.lookup key.toList = some v → ∃ t a, v = .text t ∧ read t = .ok a := by
  rcases laying_cases key entries with h | ⟨t, h⟩ | ⟨v, h, hv⟩
  · simp [laying_of_missing h, h]
  · rw [laying_of_text h, h]
    cases hread : read t with
    | error failure =>
        change (∃ c', (Except.error failure : Except Failure Config) = .ok c') ↔ _
        simp [hread]
    | ok a =>
        change (∃ c', (Except.ok (put c a) : Except Failure Config) = .ok c') ↔ _
        simp [hread]
  · rw [laying_of_other h hv, h]
    simp [hv]

end Laying

/-- The strategy that a table asks for, if it asks for one, is one that there is. -/
def NamesStrategy (entries : Toml.Entries) : Prop :=
  ∀ v, entries.lookup "strategy".toList = some v →
    ∃ name s, v = .text name ∧ Strategy.ofName? (String.ofList name) = some s

/-- The encoding that a table asks for has a NUL in its name. -/
def NulEncoding (entries : Toml.Entries) : Prop :=
  ∃ name, entries.lookup "encoding".toList = some (.text name) ∧ '\x00' ∈ name

theorem foreign_withEntries_iff : Refuses Foreign (c.withEntries entries source) ↔
    NamesStrategy entries ∧ NulEncoding entries := by
  rw [withEntries_eq]
  simp only [Refuses.bind_iff, foreign_laying_iff, not_foreign_readStrategy,
    foreign_readEncoding_iff, not_foreign_readPlaceholder, not_foreign_readTempPrefix,
    Refuses.ok_iff, and_false, exists_false, false_or, or_false, exists_and_right,
    exists_laying_iff, readStrategy_eq_ok_iff]
  rfl

/-! ### Files -/

/-- A path that cannot be looked at, or that of a file with garbled content. -/
inductive Unusable (m : Machine) (path : Path) : Prop
  | overlong (h : m.Overlong path)
  | garbled {content : Bytes} (held : m.Holds path content) (h : Garbled content)

/-- A file with a table that asks for an encoding with a NUL in its name. -/
def Misnames (m : Machine) (path : Path) : Prop :=
  ∃ entries, (on (tableOf path) m).1 = .ok (some entries) ∧ NamesStrategy entries ∧
    NulEncoding entries

theorem exists_holds_of_tableOf {table : Option Toml.Entries}
    (h : (on (tableOf path) m).1 = .ok table) : ∃ content, m.Holds path content := by
  rw [tableOf, on_bind, on_readDocument] at h
  cases hnul : path.hasNul with
  | true =>
      rw [hnul] at h
      cases h
  | false =>
      cases hread : m.store.readFile m.here path with
      | ok content => exact ⟨content, hnul, hread⟩
      | error cause =>
          rw [hnul, hread] at h
          cases h

theorem unusable_iff_of_holds {content : Bytes} (h : m.Holds path content) :
    Unusable m path ↔ Garbled content := by
  constructor
  · rintro (hlong | ⟨held, hgarbled⟩)
    · exact absurd hlong h.not_overlong
    · rw [← h.unique held]
      exact hgarbled
  · exact fun hgarbled => .garbled h hgarbled

theorem unusable_iff_of_missing (h : ∀ content, ¬ m.Holds path content) :
    Unusable m path ↔ m.Overlong path := by
  constructor
  · rintro (hlong | ⟨held, -⟩)
    · exact hlong
    · exact absurd held (h _)
  · exact .overlong

theorem foreign_laid_iff {table : Option Toml.Entries} : FailsFor Foreign (laid path table) m ↔
    ∃ entries, table = some entries ∧ NamesStrategy entries ∧ NulEncoding entries := by
  cases table with
  | none =>
      rw [laid, failsFor_bind_iff (.noteAll _) fun _ => .pure _]
      simp
  | some entries =>
      rw [laid, failsFor_bind_iff (.noteAll _) fun _ => .value _]
      simp [foreign_withEntries_iff, on_noteAll]

theorem foreign_ofFile_iff :
    FailsFor Foreign (ofFile path) m ↔ Unusable m path ∨ Misnames m path := by
  rw [ofFile, failsFor_bind_iff (.isFile path) (quiet_present path), foreign_isFile_iff]
  rcases isFile_cases path m with hlong | ⟨⟨content, held⟩, hfile⟩ | ⟨hmissing, hfile⟩
  · simp [hlong, Unusable.overlong hlong]
  · rw [unusable_iff_of_holds held, hfile]
    simp only [held.not_overlong, false_or, Except.ok.injEq, exists_eq_left', if_true]
    rw [failsFor_bind_iff (quiet_tableOf path) (quiet_laid path), foreign_tableOf_iff held]
    refine or_congr_right ⟨?_, ?_⟩
    · rintro ⟨table, htable, hlaid⟩
      obtain ⟨entries, rfl, hentries⟩ := foreign_laid_iff.mp hlaid
      exact ⟨entries, htable, hentries⟩
    · rintro ⟨entries, htable, hentries⟩
      exact ⟨some entries, htable, foreign_laid_iff.mpr ⟨entries, rfl, hentries⟩⟩
  · have hnowhere : ¬ Misnames m path := by
      rintro ⟨entries, htable, -⟩
      obtain ⟨content, held⟩ := exists_holds_of_tableOf htable
      exact hmissing content held
    rw [unusable_iff_of_missing hmissing, hfile]
    simp [hnowhere, Foreign, Failure.category]

/-! ### Searches -/

section Directory

variable {directory : Path} {content : Bytes}

theorem on_fileIn?_of_own (held : m.Holds (directory.child ownFile) content) :
    (on (fileIn? directory) m).1 = .ok (some (directory.child ownFile)) := by
  have hfile := on_isFile_eq_true_iff_holds.mpr ⟨content, held⟩
  rw [fileIn?_eq, on_bind_quiet (.isFile _) (quiet_own directory)]
  exact ⟨true, hfile, rfl⟩

theorem eq_project_of_projectIn? (h : (on (projectIn? directory) m).1 = .ok (some path)) :
    path = directory.child projectFile := by
  rw [projectIn?, on_bind_quiet (.isFile _) (quiet_project directory)] at h
  obtain ⟨project, -, h⟩ := h
  cases project with
  | false => cases h
  | true =>
      obtain ⟨table, -, h⟩ := (on_bind_quiet (quiet_tableOf _) fun _ => .pure _).mp h
      cases hempty : (table.getD []).isEmpty with
      | true =>
          rw [hempty] at h
          cases h
      | false =>
          rw [hempty] at h
          exact (Option.some.inj (Except.ok.inj h)).symm

/-- A search ends at the own file of a directory, or at its project file if there is no own one. -/
theorem own_or_project_of_fileIn? (h : (on (fileIn? directory) m).1 = .ok (some path)) :
    path = directory.child ownFile ∨ path = directory.child projectFile ∧
      ∀ content, ¬ m.Holds (directory.child ownFile) content := by
  rw [fileIn?_eq, on_bind_quiet (.isFile _) (quiet_own directory)] at h
  obtain ⟨own, hown, h⟩ := h
  cases own with
  | true => exact .inl (Option.some.inj (Except.ok.inj h)).symm
  | false =>
      refine .inr ⟨eq_project_of_projectIn? h, fun content held => ?_⟩
      rw [on_isFile_eq_true_iff_holds.mpr ⟨content, held⟩] at hown
      cases hown

theorem foreign_projectIn?_iff :
    FailsFor Foreign (projectIn? directory) m ↔ Unusable m (directory.child projectFile) := by
  rw [projectIn?, failsFor_bind_iff (.isFile _) (quiet_project directory), foreign_isFile_iff]
  rcases isFile_cases (directory.child projectFile) m with
    hlong | ⟨⟨content, held⟩, hfile⟩ | ⟨hmissing, hfile⟩
  · simp [hlong, Unusable.overlong hlong]
  · rw [unusable_iff_of_holds held, hfile]
    simp only [held.not_overlong, false_or, Except.ok.injEq, exists_eq_left', if_true]
    rw [failsFor_bind_iff (quiet_tableOf _) fun _ => .pure _, foreign_tableOf_iff held]
    simp
  · rw [unusable_iff_of_missing hmissing, hfile]
    simp

theorem foreign_fileIn?_iff :
    FailsFor Foreign (fileIn? directory : Run (StateM Machine) (Option Path)) m ↔
      m.Overlong (directory.child ownFile) ∨
        (∀ content, ¬ m.Holds (directory.child ownFile) content) ∧
          Unusable m (directory.child projectFile) := by
  rw [fileIn?_eq, failsFor_bind_iff (.isFile _) (quiet_own directory), foreign_isFile_iff]
  rcases isFile_cases (directory.child ownFile) m with
    hlong | ⟨⟨content, held⟩, hfile⟩ | ⟨hmissing, hfile⟩
  · simp [hlong]
  · have hthere : ¬ ∀ content, ¬ m.Holds (directory.child ownFile) content :=
      fun h => h content held
    rw [hfile]
    simp [hthere]
  · rw [hfile]
    simp [hmissing, foreign_projectIn?_iff]

end Directory

/-- The files that a search looks at, in some directories one after the other. -/
inductive Visits (m : Machine) : List Path → Path → Prop
  | own (directory : Path) (rest : List Path) :
      Visits m (directory :: rest) (directory.child ownFile)
  | project {directory : Path} (rest : List Path)
      (missing : ∀ content, ¬ m.Holds (directory.child ownFile) content) :
      Visits m (directory :: rest) (directory.child projectFile)
  | further {directory path : Path} {rest : List Path}
      (passed : (on (fileIn? directory) m).1 = .ok none) (h : Visits m rest path) :
      Visits m (directory :: rest) path

/-- What a search goes on with behind a directory. -/
def goOn (rest : List Path) : Option Path → Run (StateM Machine) (Option Path)
  | some path => pure (some path)
  | none => firstIn? rest

theorem firstIn?_cons (directory : Path) (rest : List Path) :
    (firstIn? (directory :: rest) : Run (StateM Machine) (Option Path)) =
      fileIn? directory >>= goOn rest := by
  rw [firstIn?]
  refine bind_congr fun found => ?_
  cases found <;> rfl

theorem quiet_goOn (rest : List Path) (found : Option Path) : Quiet (goOn rest found) := by
  cases found with
  | some path => exact .pure _
  | none => exact quiet_firstIn? rest

theorem on_firstIn?_cons_eq_some_iff {directory : Path} {rest : List Path} :
    (on (firstIn? (directory :: rest)) m).1 = .ok (some path) ↔
      (on (fileIn? directory) m).1 = .ok (some path) ∨
        (on (fileIn? directory) m).1 = .ok none ∧
          (on (firstIn? rest) m).1 = .ok (some path) := by
  rw [firstIn?_cons, on_bind_quiet (quiet_fileIn? directory) (quiet_goOn rest)]
  constructor
  · rintro ⟨found, hfile, h⟩
    cases found with
    | none => exact .inr ⟨hfile, h⟩
    | some found =>
        obtain rfl : found = path := Option.some.inj (Except.ok.inj h)
        exact .inl hfile
  · rintro (hfile | ⟨hfile, h⟩)
    · exact ⟨some path, hfile, rfl⟩
    · exact ⟨none, hfile, h⟩

/-- A file that a search ends at has been looked at. -/
theorem visits_of_fileIn? {directory : Path} (rest : List Path)
    (h : (on (fileIn? directory) m).1 = .ok (some path)) : Visits m (directory :: rest) path := by
  rcases own_or_project_of_fileIn? h with rfl | ⟨rfl, hmissing⟩
  · exact .own directory rest
  · exact .project rest hmissing

/--
Looking for a file and reading it fails, other than with a fault of the configuration,
where a file on the way is of no use, or where the file that is found misnames something.
-/
theorem foreign_firstIn?_iff (directories : List Path) :
    FailsFor Foreign (firstIn? directories >>= base) m ↔
      (∃ path, Visits m directories path ∧ Unusable m path) ∨
        ∃ path, (on (firstIn? directories) m).1 = .ok (some path) ∧ Misnames m path := by
  induction directories with
  | nil =>
      have hstandard : ¬ FailsFor Foreign (firstIn? [] >>= base : Run (StateM Machine) Config) m :=
        (FailsFor.pure_iff standard).mp
      refine iff_of_false hstandard ?_
      rintro (⟨path, hvisits, -⟩ | ⟨path, hfirst, -⟩)
      · cases hvisits
      · cases hfirst
  | cons directory rest ih =>
      rw [firstIn?_cons, bind_assoc, failsFor_bind_iff (quiet_fileIn? directory)
        fun found => (quiet_goOn rest found).bind quiet_base, foreign_fileIn?_iff,
        ← firstIn?_cons]
      have hgo : ∀ path, FailsFor Foreign (goOn rest (some path) >>= base) m ↔
          Unusable m path ∨ Misnames m path := fun path => foreign_ofFile_iff
      constructor
      · rintro ((hlong | ⟨hmissing, hunusable⟩) | ⟨_ | path, hfile, hfails⟩)
        · exact .inl ⟨_, .own directory rest, .overlong hlong⟩
        · exact .inl ⟨_, .project rest hmissing, hunusable⟩
        · rcases ih.mp hfails with ⟨path, hvisits, hunusable⟩ | ⟨path, hfirst, hmisnames⟩
          · exact .inl ⟨path, .further hfile hvisits, hunusable⟩
          · exact .inr ⟨path, on_firstIn?_cons_eq_some_iff.mpr (.inr ⟨hfile, hfirst⟩), hmisnames⟩
        · rcases (hgo path).mp hfails with hunusable | hmisnames
          · exact .inl ⟨path, visits_of_fileIn? rest hfile, hunusable⟩
          · exact .inr ⟨path, on_firstIn?_cons_eq_some_iff.mpr (.inl hfile), hmisnames⟩
      · rintro (⟨path, hvisits, hunusable⟩ | ⟨path, hfirst, hmisnames⟩)
        · cases hvisits with
          | own =>
              cases hunusable with
              | overlong hlong => exact .inl (.inl hlong)
              | garbled held hgarbled =>
                  exact .inr ⟨_, on_fileIn?_of_own held,
                    (hgo _).mpr (.inl (.garbled held hgarbled))⟩
          | project _ hmissing => exact .inl (.inr ⟨hmissing, hunusable⟩)
          | further hpassed hvisits =>
              exact .inr ⟨none, hpassed, ih.mpr (.inl ⟨path, hvisits, hunusable⟩)⟩
        · rcases on_firstIn?_cons_eq_some_iff.mp hfirst with hfile | ⟨hfile, hfirst⟩
          · exact .inr ⟨some path, hfile, (hgo path).mpr (.inr hmisnames)⟩
          · exact .inr ⟨none, hfile, ih.mpr (.inr ⟨path, hfirst, hmisnames⟩)⟩

/-! ### Loading -/

/-- A file that loading looks at: the one that is named, or those on the way of a search. -/
def Consults (m : Machine) (path start : Option Path) (search : Bool) (file : Path) : Prop :=
  path = some file ∨ path = none ∧ search = true ∧
    Visits m (origin m start :: (origin m start).parents) file

theorem foreign_chosen_iff (path start : Option Path) (search : Bool) :
    FailsFor Foreign (chosen path start search >>= base) m ↔
      (path = none ∧ search = true ∧ (origin m start).hasNul = true) ∨
        (∃ file, Consults m path start search file ∧ Unusable m file) ∨
          ∃ file, (on (chosen path start search) m).1 = .ok (some file) ∧ Misnames m file := by
  cases path with
  | some path =>
      have hnamed : FailsFor Foreign (chosen (some path) start search >>= base) m ↔
          Unusable m path ∨ Misnames m path := foreign_ofFile_iff
      rw [hnamed]
      simp [Consults, chosen, on_pure]
  | none =>
      cases search with
      | false =>
          have hstandard : ¬ FailsFor Foreign (chosen none start false >>= base) m :=
            (FailsFor.pure_iff standard).mp
          refine iff_of_false hstandard ?_
          simp [Consults, chosen, on_pure]
      | true =>
          have hsearch : FailsFor Foreign (chosen none start true >>= base) m ↔
              Refuses Foreign (on (discover? start >>= base) m).1 := Iff.rfl
          have hchosen : on (chosen none start true) m = on (discover? start) m := rfl
          rw [hsearch, on_bind, hchosen, on_discover?]
          cases hnul : (origin m start).hasNul with
          | true => simp [Foreign, Failure.category]
          | false =>
              have hfirst := foreign_firstIn?_iff (m := m)
                (origin m start :: (origin m start).parents)
              change Refuses Foreign (on _ m).1 ↔ _ at hfirst
              rw [on_bind] at hfirst
              simpa [Consults] using hfirst

/-- A configuration with another strategy, if one is named. -/
def withStrategy (c : Config) : Option String → Except Failure Config
  | some name => (fun s => { c with strategy := s }) <$> readStrategy none name
  | none => .ok c

/-- A configuration with another encoding, if one is named. -/
def withEncoding (c : Config) : Option String → Except Failure Config
  | some name => (fun name => { c with encoding := name }) <$> readEncoding none name.toList
  | none => .ok c

theorem withSettings_eq (c : Config) (strategy encoding : Option String) :
    c.withSettings strategy encoding = c.withStrategy strategy >>= (·.withEncoding encoding) := by
  cases strategy with
  | none =>
      cases encoding with
      | none => rfl
      | some name => exact (map_eq_pure_bind (m := Except Failure) _ _).symm
  | some name =>
      rw [withStrategy, bind_map_left]
      simp only [withSettings, pure_bind]
      refine bind_congr fun s => ?_
      cases encoding with
      | none => rfl
      | some name => exact (map_eq_pure_bind (m := Except Failure) _ _).symm

theorem not_foreign_withStrategy : ¬ Refuses Foreign (c.withStrategy strategy) := by
  cases strategy with
  | none => simp [withStrategy]
  | some name =>
      rw [withStrategy, Refuses.map_iff]
      exact not_foreign_readStrategy name

theorem foreign_withEncoding_iff : Refuses Foreign (c.withEncoding encoding) ↔
    ∃ name, encoding = some name ∧ '\x00' ∈ name.toList := by
  cases encoding with
  | none => simp [withEncoding]
  | some name =>
      rw [withEncoding, Refuses.map_iff, foreign_readEncoding_iff]
      simp

theorem foreign_withSettings_iff : Refuses Foreign (c.withSettings strategy encoding) ↔
    (∃ c', c.withSettings strategy none = .ok c') ∧
      ∃ name, encoding = some name ∧ '\x00' ∈ name.toList := by
  rw [withSettings_eq, withSettings_eq, Refuses.bind_iff]
  simp only [not_foreign_withStrategy, false_or, foreign_withEncoding_iff, exists_and_right]
  have hsame : (c.withStrategy strategy >>= fun c => c.withEncoding none) =
      c.withStrategy strategy := bind_pure _
  rw [hsame]

/--
Loading ends with a configuration or with a fault of one, except in four cases: the search
starts at a path with a NUL; a file that loading looks at cannot be looked at, is no text in
UTF-8 or says something twice; the table that is found, or a single setting, names an
encoding with a NUL while everything in front of it is in order.
-/
theorem load_fails_otherwise_iff (path start : Option Path) (search : Bool)
    (strategy encoding : Option String) (m : Machine) :
    (∃ failure, (on (load path start search strategy encoding) m).1 = .error failure ∧
      failure.category ≠ .configuration) ↔
      (path = none ∧ search = true ∧ (origin m start).hasNul = true) ∨
        (∃ file, Consults m path start search file ∧ Unusable m file) ∨
        (∃ file, (on (chosen path start search) m).1 = .ok (some file) ∧ Misnames m file) ∨
        ((∃ c, (on (load path start search strategy none) m).1 = .ok c) ∧
          ∃ name, encoding = some name ∧ '\x00' ∈ name.toList) := by
  have hquiet : Quiet (chosen path start search >>= base) :=
    (quiet_chosen path start search).bind quiet_base
  have hfails := failsFor_bind_iff (P := Foreign) (m := m) hquiet
    fun c => .value (c.withSettings strategy encoding)
  have hloads : (∃ c, (on (load path start search strategy none) m).1 = .ok c) ↔
      ∃ c, (on (chosen path start search >>= base) m).1 = .ok c ∧
        ∃ c', c.withSettings strategy none = .ok c' := by
    rw [load_eq, ← bind_assoc]
    simp only [on_bind_quiet hquiet fun c => .value (c.withSettings strategy none), on_value]
    exact ⟨fun ⟨c', c, hc⟩ => ⟨c, hc.1, c', hc.2⟩, fun ⟨c, hc, c', h⟩ => ⟨c', c, hc, h⟩⟩
  change FailsFor Foreign (load path start search strategy encoding) m ↔ _
  rw [load_eq, ← bind_assoc, hfails, foreign_chosen_iff, hloads]
  simp only [FailsFor.value_iff, foreign_withSettings_iff, or_assoc]
  simp only [← and_assoc, exists_and_right]

/-- A machine with a configuration file of its own in the working directory. -/
def configuredMachine (content : Bytes) : Machine :=
  Machine.start ⟨[([ownFile], .file content)]⟩ [] [.sample]

theorem load_fails_otherwise_garbled :
    Refuses Foreign (on (load (some (.ofString ownFile)) none true none none)
        (configuredMachine [0xFF])).1 ∧
      Refuses Foreign (on (load none none true none none)
        (configuredMachine
          "[provmark]\nstrategy = 'inline'\nstrategy = 'inline'\n".toUTF8.toList)).1 := by
  decide +kernel

end PageManifest.Config
