import PageManifest.Config.Written
import PageManifest.Proofs.Coding
import PageManifest.Proofs.Loading
import PageManifest.Proofs.Partition
import PageManifest.Proofs.Tables

/-! # Written configurations are read back

Whatever tables and settings have been laid over the standard configuration, every
setting of the outcome is read from what is written of it.  So the document that a
configuration is written as, in a file of any name but that of a project file, makes the
same settings of any other configuration.
-/

namespace PageManifest

/-! ## Codings -/

namespace Charset

/-- The number whose digits are the octets of a name. -/
def octetNumber (name : String) : Nat :=
  name.toByteArray.data.toList.foldl (fun n octet => 256 * n + octet.toNat) 0

namespace NameEntry

variable {e : NameEntry} {name : String}

def names (e : NameEntry) : List String :=
  e.own ++ e.aliases

/-- The product of the numbers of all names. -/
def product (e : NameEntry) : Nat :=
  e.names.foldr (fun name product => octetNumber name * product) 1

theorem octetNumber_dvd_product (h : name ∈ e.names) : octetNumber name ∣ e.product := by
  unfold product
  generalize e.names = names at h
  induction names with
  | nil => cases h
  | cons first rest ih =>
      rw [List.foldr_cons]
      rcases List.mem_cons.mp h with rfl | h
      · exact Nat.dvd_mul_right _ _
      · exact Nat.dvd_trans (ih h) (Nat.dvd_mul_left _ _)

/-- What the canonical name is looked up as. -/
def key (e : NameEntry) : Text :=
  normalName false false e.canonical.toList

end NameEntry

/--
The canonical name of a coding is a name of that coding, and of no other one.  Products of
numbers are compared, since the texts would have to be decoded for each comparison.
-/
theorem key_of_mem_nameEntries : ∀ e ∈ nameEntries,
    '.' ∉ e.key ∧ String.ofList e.key ∈ e.names ∧
      ∀ e' ∈ nameEntries, octetNumber (String.ofList e.key) ∣ e'.product →
        e'.canonical = e.canonical := by
  decide +kernel

theorem canonicalName?_canonical {e : NameEntry} (he : e ∈ nameEntries) :
    canonicalName? e.canonical = some e.canonical := by
  obtain ⟨hdot, hown, hother⟩ := key_of_mem_nameEntries e he
  have hsame : ∀ e' ∈ nameEntries, String.ofList e.key ∈ e'.names →
      e'.canonical = e.canonical :=
    fun e' he' hname => hother e' he' (NameEntry.octetNumber_dvd_product hname)
  have hundotted : e.key.map (fun c => if c = '.' then '_' else c) = e.key := by
    refine (List.map_congr_left fun c hc => ?_).trans (List.map_id e.key)
    have hne : c ≠ '.' := by
      rintro rfl
      exact hdot hc
    rw [if_neg hne]
    rfl
  unfold canonicalName?
  dsimp only
  change Option.map _
    (List.find? (fun e' => e'.aliases.contains (String.ofList e.key)) nameEntries <|>
    List.find? (fun e' => e'.aliases.contains
      (String.ofList (e.key.map fun c => if c = '.' then '_' else c))) nameEntries <|>
    List.find? (fun e' => e'.own.contains (String.ofList e.key)) nameEntries) = _
  rw [hundotted]
  cases halias : nameEntries.find? fun e' => e'.aliases.contains (String.ofList e.key) with
  | some e' =>
      have hname := List.find?_some halias
      rw [List.contains_iff_mem] at hname
      exact congrArg some (hsame e' (List.mem_of_find?_eq_some halias)
        (List.mem_append_right _ hname))
  | none =>
      have hown : String.ofList e.key ∈ e.own := by
        refine (List.mem_append.mp hown).resolve_right fun h => ?_
        exact List.find?_eq_none.mp halias e he (List.contains_iff_mem.mpr h)
      cases hfound : nameEntries.find? fun e' => e'.own.contains (String.ofList e.key) with
      | some e' =>
          have hname := List.find?_some hfound
          rw [List.contains_iff_mem] at hname
          exact congrArg some (hsame e' (List.mem_of_find?_eq_some hfound)
            (List.mem_append_left _ hname))
      | none => exact absurd (List.contains_iff_mem.mpr hown) (List.find?_eq_none.mp hfound e he)

/-- A character between the hyphen and the last letter of ASCII. -/
def isPlain (c : Char) : Bool :=
  45 ≤ c.toNat && c.toNat ≤ 122

/-- Canonical names are of ASCII letters, digits and marks. -/
theorem plain_canonical : ∀ e ∈ nameEntries,
    e.canonical.toList ≠ [] ∧ e.canonical.toList.all isPlain = true := by
  decide +kernel

theorem not_blank_of_isPlain {c : Char} (h : isPlain c = true) : Text.isBlank c = false := by
  simp only [isPlain, Bool.and_eq_true, decide_eq_true_eq] at h
  simp only [Text.isBlank, Bool.or_eq_false_iff, Bool.and_eq_false_iff, decide_eq_false_iff_not,
    beq_eq_false_iff_ne, ne_eq]
  omega

theorem exists_entry_of_canonicalName? {name canonical : String}
    (h : canonicalName? name = some canonical) : ∃ e ∈ nameEntries, e.canonical = canonical := by
  obtain ⟨e, he, hcanonical⟩ := Option.map_eq_some_iff.mp h
  refine ⟨e, ?_, hcanonical⟩
  have hor : ∀ x y : Option NameEntry, (x <|> y) = x.or y := by
    intro x y
    cases x <;> rfl
  simp only [hor, Option.or_eq_some_iff] at he
  rcases he with he | ⟨-, he | ⟨-, he⟩⟩
  · exact List.mem_of_find?_eq_some he
  · exact List.mem_of_find?_eq_some he
  · exact List.mem_of_find?_eq_some he

/-- The octets of a text are shown as the text. -/
theorem Utf8.readableFrom_body (t : Text) (fuel : Nat)
    (hfuel : (Codec.utf8.body t).length ≤ fuel) : readableFrom fuel (Codec.utf8.body t) = t := by
  induction t generalizing fuel with
  | nil => cases fuel <;> rfl
  | cons c t ih =>
      obtain ⟨b, bs, hoctets, hstep⟩ := readsBack c
      have hbody : Codec.utf8.body (c :: t) = b :: (bs ++ Codec.utf8.body t) := by
        simp [Codec.body, Codec.octets, hoctets]
      rw [hbody, List.length_cons, List.length_append] at hfuel
      obtain ⟨fuel, rfl⟩ : ∃ n, fuel = n + 1 := ⟨fuel - 1, by omega⟩
      rw [hbody, readableFrom, hstep]
      dsimp only
      rw [ih fuel (by omega)]

theorem Utf8.readable_body (t : Text) : readable (Codec.utf8.body t) = t :=
  readableFrom_body t _ (Nat.le_refl _)

/-- Every text has a form in UTF-8, which is read back. -/
theorem decode_utf8_body (t : Text) : (codec .utf8).decode (Codec.utf8.body t) = .ok t :=
  decode_codec_eq_ok_iff.mpr (Codec.decode_of_encode (Codec.encode_eq_ok_iff.mpr
    ⟨fun _ _ => rfl, rfl⟩))

end Charset

namespace Config

open Run

variable {c c' : Config} {entries : Toml.Entries} {source : Option Path} {t : Text}

/-! ## Settings that are read back -/

theorem readEncoding_eq_ok_iff {canonical : String} : readEncoding source t = .ok canonical ↔
    Text.trim t ≠ [] ∧ '\x00' ∉ Text.trim t ∧
      Charset.canonicalName? (String.ofList (Text.trim t)) = some canonical := by
  rw [readEncoding]
  cases hempty : (Text.trim t).isEmpty with
  | true => simp [List.isEmpty_iff.mp hempty]
  | false =>
      have hne : Text.trim t ≠ [] := by simpa [List.isEmpty_eq_false_iff] using hempty
      by_cases hnul : '\x00' ∈ Text.trim t
      · simp [hnul]
      · cases hname : Charset.canonicalName? (String.ofList (Text.trim t)) <;> simp [hnul, hne]

/-- What the name of an encoding is read into is read into itself. -/
theorem readEncoding_of_read {canonical : String} (h : readEncoding source t = .ok canonical)
    (source' : Option Path) : readEncoding source' canonical.toList = .ok canonical := by
  obtain ⟨-, -, hname⟩ := readEncoding_eq_ok_iff.mp h
  obtain ⟨e, he, rfl⟩ := Charset.exists_entry_of_canonicalName? hname
  obtain ⟨hne, hplain⟩ := Charset.plain_canonical e he
  rw [readEncoding_eq_ok_iff,
    Text.trim_of_no_blank fun c hc =>
      Charset.not_blank_of_isPlain (List.all_eq_true.mp hplain c hc),
    String.ofList_toList]
  refine ⟨hne, fun hnul => ?_, Charset.canonicalName?_canonical he⟩
  exact absurd (List.all_eq_true.mp hplain _ hnul) (by decide)

theorem readPlaceholder_eq_ok_iff {payload : Bytes} : readPlaceholder source t = .ok payload ↔
    t ≠ [] ∧ Charset.Codec.utf8.body t = payload := by
  rw [readPlaceholder]
  cases t <;> simp

theorem readTempPrefix_eq_ok_iff {start : String} : readTempPrefix source t = .ok start ↔
    (t ≠ [] ∧ '/' ∉ t ∧ '\\' ∉ t) ∧ String.ofList t = start := by
  rw [readTempPrefix]
  split
  · rename_i hbad
    simp only [Bool.or_eq_true, List.isEmpty_iff, List.contains_iff_mem] at hbad
    simp only [reduceCtorEq, false_iff, not_and]
    rintro ⟨hne, hslash, hback⟩
    rcases hbad with (rfl | h) | h
    · exact absurd rfl hne
    · exact absurd h hslash
    · exact absurd h hback
  · rename_i hgood
    simp only [Bool.or_eq_true, List.isEmpty_iff, List.contains_iff_mem, not_or] at hgood
    simp [hgood.1.1, hgood.1.2, hgood.2]

/-- A configuration whose settings are all read from what is written of them. -/
structure Readable (c : Config) : Prop where
  encoding : ∀ source, readEncoding source c.encoding.toList = .ok c.encoding
  placeholder : ∀ source,
    readPlaceholder source (Charset.Utf8.readable c.placeholder) = .ok c.placeholder
  tempPrefix : ∀ source, readTempPrefix source c.tempPrefix.toList = .ok c.tempPrefix

namespace Readable

theorem standard : Readable Config.standard where
  encoding _ := readEncoding_eq_ok_iff.mpr (by decide +kernel)
  placeholder _ := by
    rw [Config.standard, Charset.Utf8.readable_body]
    exact readPlaceholder_eq_ok_iff.mpr ⟨by decide, rfl⟩
  tempPrefix _ := readTempPrefix_eq_ok_iff.mpr ⟨by decide, String.ofList_toList⟩

theorem with_strategy (h : Readable c) (s : Strategy) : Readable { c with strategy := s } :=
  ⟨h.encoding, h.placeholder, h.tempPrefix⟩

theorem with_source (h : Readable c) (source : Option Path) :
    Readable { c with source := source } :=
  ⟨h.encoding, h.placeholder, h.tempPrefix⟩

theorem with_encoding (h : Readable c) {name : String} (hread : readEncoding source t = .ok name) :
    Readable { c with encoding := name } :=
  ⟨readEncoding_of_read hread, h.placeholder, h.tempPrefix⟩

theorem with_placeholder (h : Readable c) {payload : Bytes}
    (hread : readPlaceholder source t = .ok payload) :
    Readable { c with placeholder := payload } := by
  obtain ⟨hne, rfl⟩ := readPlaceholder_eq_ok_iff.mp hread
  refine ⟨h.encoding, fun _ => ?_, h.tempPrefix⟩
  rw [Charset.Utf8.readable_body]
  exact readPlaceholder_eq_ok_iff.mpr ⟨hne, rfl⟩

theorem with_tempPrefix (h : Readable c) {start : String}
    (hread : readTempPrefix source t = .ok start) : Readable { c with tempPrefix := start } := by
  obtain ⟨hplain, rfl⟩ := readTempPrefix_eq_ok_iff.mp hread
  refine ⟨h.encoding, h.placeholder, fun _ => ?_⟩
  rw [String.toList_ofList]
  exact readTempPrefix_eq_ok_iff.mpr ⟨hplain, rfl⟩

/-- Steps that each lead to a readable configuration do so together. -/
theorem bind {r : Except Failure Config} {f : Config → Except Failure Config}
    (hr : ∀ c, r = .ok c → Readable c) (hf : ∀ c, Readable c → ∀ c', f c = .ok c' → Readable c') :
    ∀ c', (r >>= f) = .ok c' → Readable c' := by
  intro c' h
  cases r with
  | error failure => cases h
  | ok c => exact hf c (hr c rfl) c' h

theorem of_laying {α : Type} {key : String} {fault : ConfigFault} {read : Text → Except Failure α}
    {put : Config → α → Config} (hc : Readable c)
    (hput : ∀ t a, read t = .ok a → Readable (put c a)) :
    ∀ c', laying key fault read put entries source c = .ok c' → Readable c' := by
  intro c' h
  rcases laying_cases key entries with hkey | ⟨t, hkey⟩ | ⟨v, hkey, hv⟩
  · rw [laying_of_missing hkey] at h
    cases h
    exact hc
  · rw [laying_of_text hkey] at h
    cases hread : read t with
    | error failure =>
        rw [hread] at h
        cases h
    | ok a =>
        rw [hread] at h
        cases h
        exact hput t a hread
  · rw [laying_of_other hkey hv] at h
    cases h

theorem of_withEntries (hc : Readable c) : ∀ c', c.withEntries entries source = .ok c' →
    Readable c' := by
  rw [withEntries_eq]
  refine bind (hc.of_laying fun t s _ => hc.with_strategy s) fun c hc => ?_
  refine bind (hc.of_laying fun t name => hc.with_encoding) fun c hc => ?_
  refine bind (hc.of_laying fun t payload => hc.with_placeholder) fun c hc => ?_
  refine bind (hc.of_laying fun t start => hc.with_tempPrefix) fun c hc => ?_
  rintro c' ⟨⟩
  exact hc.with_source _

theorem of_withSettings {strategy encoding : Option String} (hc : Readable c) :
    ∀ c', c.withSettings strategy encoding = .ok c' → Readable c' := by
  rw [withSettings_eq]
  refine bind (fun c' h => ?_) fun c hc c' h => ?_
  · cases strategy with
    | none =>
        cases h
        exact hc
    | some name =>
        rw [withStrategy] at h
        cases hread : readStrategy none name with
        | error failure =>
            rw [hread] at h
            cases h
        | ok s =>
            rw [hread] at h
            cases h
            exact hc.with_strategy s
  · cases encoding with
    | none =>
        cases h
        exact hc
    | some name =>
        rw [withEncoding] at h
        cases hread : readEncoding none name.toList with
        | error failure =>
            rw [hread] at h
            cases h
        | ok canonical =>
            rw [hread] at h
            cases h
            exact hc.with_encoding hread

end Readable

/-- The configurations that come about from the standard one. -/
inductive Made : Config → Prop
  | standard : Made standard
  | withEntries {c c' : Config} {entries : Toml.Entries} {source : Option Path} (made : Made c)
      (h : c.withEntries entries source = .ok c') : Made c'
  | withSettings {c c' : Config} {strategy encoding : Option String} (made : Made c)
      (h : c.withSettings strategy encoding = .ok c') : Made c'

theorem Made.readable (made : Made c) : Readable c := by
  induction made with
  | standard => exact .standard
  | withEntries _ h ih => exact ih.of_withEntries _ h
  | withSettings _ h ih => exact ih.of_withSettings _ h

/-! ## The written table -/

/-- The table that a configuration is written as. -/
def table (c : Config) : Toml.Entries :=
  Toml.textEntries c.entries

/-- The table of a configuration makes its settings of any other configuration. -/
theorem Readable.withEntries_table (h : Readable c) (base : Config) (source : Option Path) :
    base.withEntries c.table source = .ok { c with source := source <|> base.source } := by
  have hstrategy : c.table.lookup "strategy".toList = some (.text c.strategy.name.toList) := rfl
  have hencoding : c.table.lookup "encoding".toList = some (.text c.encoding.toList) := rfl
  have hplaceholder : c.table.lookup "placeholder".toList =
      some (.text (Charset.Utf8.readable c.placeholder)) := rfl
  have hprefix : c.table.lookup "temp_prefix".toList = some (.text c.tempPrefix.toList) := rfl
  have hname : readStrategy source (String.ofList c.strategy.name.toList) = .ok c.strategy := by
    rw [String.ofList_toList, readStrategy_eq_ok_iff]
    exact Strategy.ofName?_name c.strategy
  simp only [withEntries_eq, laying_of_text hstrategy, laying_of_text hencoding,
    laying_of_text hplaceholder, laying_of_text hprefix, hname, h.encoding, h.placeholder,
    h.tempPrefix]
  rfl

theorem isBareKey_tableName : Toml.IsBareKey tableName.toList :=
  .of_all (by decide) (by decide)

theorem isBareKey_entries (c : Config) : ∀ entry ∈ c.entries, Toml.IsBareKey entry.1 := by
  simp only [entries, List.forall_mem_cons]
  exact ⟨.of_all (by decide) (by decide), .of_all (by decide) (by decide),
    .of_all (by decide) (by decide), .of_all (by decide) (by decide), by simp⟩

theorem nodup_entries (c : Config) : (c.entries.map Prod.fst).Nodup := by
  change ["strategy".toList, "encoding".toList, "placeholder".toList, "temp_prefix".toList].Nodup
  decide

/-- What is written of the source does not keep the table from being read. -/
theorem read_written (hsource : ∀ path, c.source = some path →
    ∀ ch ∈ path.toString.toList, Toml.isControl ch = false) :
    Toml.read c.written = .ok [(tableName.toList, .table .header c.table)] := by
  refine Toml.read_writtenTable isBareKey_tableName (isBareKey_entries c) (nodup_entries c) ?_
  cases h : c.source with
  | none => exact Toml.skipAllBlanks_of_solid rfl (by decide)
  | some path =>
      refine Toml.skipAllBlanks_writtenComment (fun ch hch => ?_) rfl (by decide)
      rw [String.toList_append, List.mem_append] at hch
      rcases hch with hch | hch
      · have hplain : "Loaded from ".toList.all (fun ch => !Toml.isControl ch) = true := by decide
        simpa using List.all_eq_true.mp hplain ch hch
      · exact hsource path h ch hch

/-! ## The written text -/

theorem withLineFeeds_of_no_return (h : '\r' ∉ t) : withLineFeeds t = t := by
  induction t with
  | nil => rfl
  | cons c t ih =>
      have hc : c ≠ '\r' := fun heq => h (by simp [heq])
      have ht := ih fun hmem => h (by simp [hmem])
      rw [withLineFeeds, ht]
      · rintro t' rfl -
        exact hc rfl
      · rintro rfl
        exact hc rfl

theorem return_not_mem_writtenPair {key value : Text} (hkey : Toml.IsBareKey key) :
    '\r' ∉ Toml.writtenPair key value := by
  simp only [Toml.writtenPair, Toml.writtenText, List.cons_append, List.mem_append, List.mem_cons,
    List.not_mem_nil]
  have hreturn : ¬ '\r' ∈ key := fun h => absurd (hkey.bare _ h) (by decide)
  have htext := Toml.return_not_mem_written value
  simp [hreturn, htext]

theorem return_not_mem_written (hsource : ∀ path, c.source = some path →
    ∀ ch ∈ path.toString.toList, Toml.isControl ch = false) : '\r' ∉ c.written := by
  have htable : '\r' ∉ Toml.writtenTable tableName.toList c.entries := by
    have hname : '\r' ∉ '[' :: tableName.toList ++ [']', '\n'] := by decide
    rw [Toml.writtenTable, List.mem_append, List.mem_flatMap]
    rintro (h | ⟨entry, hentry, h⟩)
    · exact hname h
    · exact return_not_mem_writtenPair (isBareKey_entries c entry hentry) h
  have horigin : ∀ path : Path, (∀ ch ∈ path.toString.toList, Toml.isControl ch = false) →
      '\r' ∉ Toml.writtenComment ("Loaded from " ++ path.toString).toList ++ ['\n'] := by
    intro path hpath h
    simp only [Toml.writtenComment, String.toList_append, List.mem_append, List.mem_cons] at h
    have hreturn : '\r' ∉ path.toString.toList := fun h => absurd (hpath _ h) (by decide)
    simp [hreturn] at h
  rw [written, List.mem_append, not_or]
  refine ⟨?_, htable⟩
  cases h : c.source with
  | none => simp
  | some path => exact horigin path (hsource path h)

/-- The document that a configuration is written as is read from a file that holds it. -/
theorem on_readDocument_written {m : Machine} {path : Path}
    (hsource : ∀ path, c.source = some path →
      ∀ ch ∈ path.toString.toList, Toml.isControl ch = false)
    (hheld : m.Holds path (Charset.Codec.utf8.body c.written)) :
    on (readDocument path) m = (.ok [(tableName.toList, .table .header c.table)], m) := by
  rw [on_readDocument, hheld.noNul, hheld.read]
  simp only [Bool.false_eq_true, if_false, documentIn, Charset.decode_utf8_body,
    withLineFeeds_of_no_return (return_not_mem_written hsource), read_written hsource, told]

theorem tableIn?_written (c : Config) (path : Path) :
    tableIn? [(tableName.toList, .table .header c.table)] path =
      .ok (if path.name = projectFile then none else some c.table) := by
  by_cases hname : path.name = projectFile
  · simp only [tableIn?, if_pos hname]
    rfl
  · simp only [tableIn?, if_neg hname]
    rfl

/--
A configuration that has come about is read back from the document that it is written as:
laid over any configuration, the table of that document makes the same settings.  Only
where the file is named as that of a project, in which tables of programs lie below
another, is the table not looked for where it is written.
-/
theorem written_reads_back (made : Made c) (hsource : ∀ path, c.source = some path →
      ∀ ch ∈ path.toString.toList, Toml.isControl ch = false) (m : Machine) (path : Path)
    (hheld : m.Holds path (Charset.Codec.utf8.body c.written)) :
    ∃ document, on (readDocument path) m = (.ok document, m) ∧
      (path.name ≠ projectFile → ∃ entries, tableIn? document path = .ok (some entries) ∧
        ∀ (base : Config) (source : Option Path), ∃ c' : Config,
          base.withEntries entries source = .ok c' ∧
          c'.strategy = c.strategy ∧ c'.encoding = c.encoding ∧
          c'.placeholder = c.placeholder ∧ c'.tempPrefix = c.tempPrefix) ∧
      (path.name = projectFile → tableIn? document path = .ok none) := by
  refine ⟨_, on_readDocument_written hsource hheld, fun hname => ?_, fun hname => ?_⟩
  · refine ⟨c.table, ?_, fun base source => ?_⟩
    · rw [tableIn?_written, if_neg hname]
    · exact ⟨_, made.readable.withEntries_table base source, rfl, rfl, rfl, rfl⟩
  · rw [tableIn?_written, if_pos hname]

/-- A placeholder with everything in it that is written by an escape, and more. -/
def unrulyPlaceholder : Text :=
  "\"\\\n\r\t\x00\x7f '\u2028😀".toList

def unrulySource : Path :=
  .ofString "settings/\"own\".toml"

def unruly : Config :=
  { standard with
    encoding := "iso8859-1"
    placeholder := Charset.Codec.utf8.body unrulyPlaceholder
    source := some unrulySource }

def dumpPath : Path :=
  .ofString "dump.toml"

def dumpMachine : Machine :=
  .start ⟨[(["dump.toml"], .file (Charset.Codec.utf8.body unruly.written))]⟩ [] [.sample]

theorem written_reads_back_unruly :
    ∃ document, on (readDocument dumpPath) dumpMachine = (.ok document, dumpMachine) ∧
      ∃ entries, tableIn? document dumpPath = .ok (some entries) ∧
        ∃ c', standard.withEntries entries (some dumpPath) = .ok c' ∧
          c'.encoding = "iso8859-1" ∧
          c'.placeholder = Charset.Codec.utf8.body unrulyPlaceholder := by
  have made : Made unruly := by
    have hplaceholder : standard.withEntries [("placeholder".toList, .text unrulyPlaceholder)]
        unruly.source = .ok { unruly with encoding := "utf-8" } :=
      eq_ok_of_toOption (by decide +kernel)
    have hencoding : Config.withSettings { unruly with encoding := "utf-8" } none
        (some "Latin-1") = .ok unruly :=
      eq_ok_of_toOption (by decide +kernel)
    exact (Made.standard.withEntries hplaceholder).withSettings hencoding
  have hsource : ∀ path, unruly.source = some path →
      ∀ ch ∈ path.toString.toList, Toml.isControl ch = false := by
    intro path hpath ch hch
    obtain rfl := Option.some.inj hpath
    have hplain : unrulySource.toString.toList.all (fun ch => !Toml.isControl ch) = true := by
      decide +kernel
    simpa using List.all_eq_true.mp hplain ch hch
  have hheld : dumpMachine.Holds dumpPath (Charset.Codec.utf8.body unruly.written) :=
    ⟨by decide, eq_ok_of_toOption (by decide +kernel)⟩
  obtain ⟨document, hread, hown, -⟩ := written_reads_back made hsource dumpMachine dumpPath hheld
  obtain ⟨entries, htable, hsettings⟩ := hown (by decide)
  obtain ⟨c', hc', -, hencoding, hplaceholder, -⟩ := hsettings standard (some dumpPath)
  exact ⟨document, hread, entries, htable, c', hc', hencoding, hplaceholder⟩

end Config

end PageManifest
