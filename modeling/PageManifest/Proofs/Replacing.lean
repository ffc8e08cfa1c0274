import PageManifest.Proofs.Runs

/-! # The steps of a replacement

A replacement needs a free place for its temporary file and a place for its target
that a file can take.  The temporary file goes to the first of the names drawn for it
that is not taken; it is written, moved over the target or else deleted.
-/

namespace PageManifest

namespace Path

theorem root_absolute_ne_none (p : Path) {directory : Path} (h : directory.root ≠ .none) :
    (p.absolute directory).root ≠ .none := by
  change (directory.join p).root ≠ .none
  unfold join
  split
  · exact h
  · assumption

theorem root_below_ne_none {p : Path} (h : p.root ≠ .none) (written : String) :
    (p.below written).root ≠ .none := by
  unfold below
  split
  · exact h
  · assumption

end Path

/-- The first of some paths that fits, and its place; those in front of it are passed over. -/
inductive FirstFit (passed : Path → Prop) (fits : Path → Location → Prop) :
    List Path → Path → Location → Prop
  | here {path : Path} {spot : Location} {rest : List Path} (fit : fits path spot) :
      FirstFit passed fits (path :: rest) path spot
  | past {first path : Path} {spot : Location} {rest : List Path} (skip : passed first)
      (later : FirstFit passed fits rest path spot) :
      FirstFit passed fits (first :: rest) path spot

namespace FirstFit

variable {passed passed' : Path → Prop} {fits fits' : Path → Location → Prop}
  {paths : List Path} {path : Path} {spot : Location}

theorem fit (h : FirstFit passed fits paths path spot) : path ∈ paths ∧ fits path spot := by
  induction h with
  | here fit => exact ⟨List.mem_cons_self, fit⟩
  | past _ _ ih => exact ⟨List.mem_cons_of_mem _ ih.1, ih.2⟩

theorem imp (h : FirstFit passed fits paths path spot)
    (hpassed : ∀ first ∈ paths, passed first → passed' first)
    (hfits : path ∈ paths → fits path spot → fits' path spot) :
    FirstFit passed' fits' paths path spot := by
  induction h with
  | here fit => exact .here (hfits List.mem_cons_self fit)
  | past skip _ ih =>
      exact .past (hpassed _ List.mem_cons_self skip)
        (ih (fun first hfirst => hpassed first (List.mem_cons_of_mem _ hfirst))
          fun hmem => hfits (List.mem_cons_of_mem _ hmem))

end FirstFit

namespace Machine

variable {m : Machine} {path target : Path} {spot place : Location}

/-- The paths that a replacement tries for its temporary file, in this order. -/
def temporaries (m : Machine) (tempPrefix : String) (target : Path) : List Path :=
  m.fresh.map fun name =>
    (target.parent.absolute ⟨.slash, m.here⟩).below (tempPrefix ++ name.text)

/-- A machine with some content in a file. -/
def putting (m : Machine) (place : Location) (content : Bytes) : Machine :=
  { m with store := m.store.set place (.file content) }

/-- A path that leads to a place where nothing is yet. -/
structure Free (m : Machine) (path : Path) (spot : Location) : Prop where
  noNul : path.hasNul = false
  located : m.store.locate m.here path = .ok spot
  vacant : m.store.node? spot = none

/-- A path that leads to a place where something is already. -/
structure Taken (m : Machine) (path : Path) : Prop where
  noNul : path.hasNul = false
  occupied : ∃ spot node, m.store.locate m.here path = .ok spot ∧
    m.store.node? spot = some node

/-- A path that leads to a place that a file can be moved to. -/
structure Writable (m : Machine) (target : Path) (place : Location) : Prop where
  noNul : target.hasNul = false
  located : m.store.locate m.here target = .ok place
  noDirectory : m.store.node? place ≠ some .directory
  named : ¬ (target.parts = [] ∨ target.name = "..")

/-- A path at which a replacement succeeds. -/
structure Replaceable (m : Machine) (tempPrefix : String) (target : Path) (place : Location) :
    Prop where
  spare : ∃ path spot, FirstFit m.Taken m.Free (m.temporaries tempPrefix target) path spot
  writable : m.Writable target place

/-- A replacement succeeds whose first temporary file is free. -/
theorem Replaceable.of_free {tempPrefix : String} {rest : List Path}
    (htemporaries : m.temporaries tempPrefix target = path :: rest) (hfree : m.Free path spot)
    (hwritable : m.Writable target place) : m.Replaceable tempPrefix target place := by
  refine ⟨⟨path, spot, ?_⟩, hwritable⟩
  rw [htemporaries]
  exact .here hfree

theorem root_ne_none_of_mem {tempPrefix : String} (h : path ∈ m.temporaries tempPrefix target) :
    path.root ≠ .none := by
  obtain ⟨name, -, rfl⟩ := List.mem_map.mp h
  exact Path.root_below_ne_none (Path.root_absolute_ne_none _ (by simp)) _

theorem Writable.place_ne_nil (h : m.Writable target place) : place ≠ [] := by
  intro hroot
  have hdir := h.noDirectory
  rw [hroot] at hdir
  exact hdir rfl

theorem Writable.congr (h : m.Writable target place) {s : Store}
    (hsame : m.store.SameDirectories s) : Machine.Writable { m with store := s } target place :=
  ⟨h.noNul, Store.locate_congr hsame h.located,
    fun hdir => h.noDirectory ((hsame place).mpr hdir), h.named⟩

theorem Free.spot_ne_nil (h : m.Free path spot) : spot ≠ [] := by
  intro hroot
  have hvacant := h.vacant
  rw [hroot] at hvacant
  cases hvacant

end Machine

open Run

variable {m : Machine} {spot : Location}

theorem on_create_of_free {path : Path} (h : m.Free path spot) :
    on (Files.answerAs Files.creation (Host.createFile path)) m =
      (.ok true, m.putting spot []) := by
  rw [on_create, h.noNul, Store.createFile, h.located]
  simp only [h.vacant, Bool.false_eq_true, if_false]
  rfl

theorem on_create_of_taken {path : Path} (h : m.Taken path) :
    on (Files.answerAs Files.creation (Host.createFile path)) m = (.ok false, m) := by
  obtain ⟨spot, node, hlocate, hnode⟩ := h.occupied
  rw [on_create, h.noNul, Store.createFile, hlocate]
  simp only [hnode, Bool.false_eq_true, if_false, if_true]

theorem on_create_of_neither {path : Path} (hfree : ∀ spot, ¬ m.Free path spot)
    (htaken : ¬ m.Taken path) : ∃ failure,
      on (Files.answerAs Files.creation (Host.createFile path)) m = (.error failure, m) := by
  rw [on_create]
  cases hnul : path.hasNul with
  | true => exact ⟨_, rfl⟩
  | false =>
      unfold Store.createFile
      cases hlocate : m.store.locate m.here path with
      | error cause =>
          refine ⟨.os (OsFault.on cause path.toString), ?_⟩
          have hother : cause ≠ .alreadyThere := by
            rintro rfl
            exact m.store.locate_ne_alreadyThere m.here path hlocate
          simp only [hother, Bool.false_eq_true, if_false]
      | ok spot =>
          cases hnode : m.store.node? spot with
          | none => exact absurd ⟨hnul, hlocate, hnode⟩ (hfree spot)
          | some node => exact absurd ⟨hnul, spot, node, hlocate, hnode⟩ htaken

theorem on_status?_unchanged (path : Path) (m : Machine) :
    (on (Files.status? path) m).2 = m := by
  rw [on_status?]
  split
  · rfl
  · split <;> rfl

theorem on_status?_of_located {path : Path} {place : Location} (hnul : path.hasNul = false)
    (hlocate : m.store.locate m.here path = .ok place) :
    ∃ found, on (Files.status? path) m = (.ok found, m) := by
  rw [on_status?, hnul, Store.status, Store.find, hlocate]
  cases hnode : m.store.node? place with
  | none => exact ⟨none, by simp [hnode]; rfl⟩
  | some node => cases node <;> simp [hnode]

/-! ## Moving a written file -/

section Steps

variable {μ : Type → Type} [Monad μ] [Host μ]

/-- Moves a file over a target, as a replacement does once the content is written. -/
def move (source target : Path) : Run μ Unit := do
  let _ ← Files.status? target
  Files.answer (Host.rename source target)

/-- Writes a file and moves it over a target. -/
def deliver (source target : Path) (content : Bytes) : Run μ Unit := do
  Files.answer (Host.writeFile source content)
  move source target

/-- Writes a file and moves it over a target, or deletes it if that is refused. -/
def settle (source target : Path) (content : Bytes) : Run μ Unit := do
  try
    deliver source target content
  catch failure =>
    Files.discard source
    throw failure

end Steps

section Move

variable {source target : Path} {content : Bytes}

theorem on_rename_of_writable {place : Location} (hsource : source.hasNul = false)
    (hfind : m.store.find m.here source = .ok (spot, .file content))
    (h : m.Writable target place) : on (Files.answer (Host.rename source target)) m =
      (.ok (), { m with store := (m.store.erase spot).set place (.file content) }) := by
  rw [on_rename, hsource, h.noNul, Store.rename, hfind]
  simp only [h.located, h.named, h.noDirectory, Bool.or_self, Bool.false_eq_true, if_false]

theorem on_rename_of_not_writable (hsource : source.hasNul = false)
    (hfind : m.store.find m.here source = .ok (spot, .file content))
    (h : ∀ place, ¬ m.Writable target place) :
    ∃ failure, on (Files.answer (Host.rename source target)) m = (.error failure, m) := by
  rw [on_rename, hsource]
  cases hnul : target.hasNul with
  | true => exact ⟨_, rfl⟩
  | false =>
      rw [Store.rename, hfind]
      cases hlocate : m.store.locate m.here target with
      | error cause => exact ⟨_, rfl⟩
      | ok place =>
          by_cases hnamed : target.parts = [] ∨ target.name = ".."
          · simp only [hnamed, if_true]
            exact ⟨_, rfl⟩
          · by_cases hdir : m.store.node? place = some .directory
            · simp only [hnamed, hdir, if_true, if_false]
              exact ⟨_, rfl⟩
            · exact absurd ⟨hnul, hlocate, hdir, hnamed⟩ (h place)

end Move

namespace Machine.Free

variable {path target : Path} {place : Location}

theorem sameDirectories (h : m.Free path spot) (content : Bytes) :
    m.store.SameDirectories (m.putting spot content).store :=
  Store.Updated.sameDirectories (Store.node?_set m.store h.spot_ne_nil (.file content))
    (by rw [h.vacant]; simp) (by simp)

/-- What is put at a free place is found there by the tidy path. -/
theorem find (h : m.Free path spot) (hroot : path.root ≠ .none) (content : Bytes) :
    (m.putting spot content).store.find m.here path.tidy = .ok (spot, .file content) := by
  have hnode := Store.node?_set m.store h.spot_ne_nil (.file content)
  rw [Store.find,
    Store.locate_congr (h.sameDirectories content) (Store.locate_tidy hroot h.located)]
  simp only [putting, hnode spot, if_true]

theorem on_write (h : m.Free path spot) (hroot : path.root ≠ .none) (before after : Bytes) :
    on (Files.answer (Host.writeFile path.tidy after)) (m.putting spot before) =
      (.ok (), m.putting spot after) := by
  have hfind : (m.putting spot before).store.find (m.putting spot before).here path.tidy =
      .ok (spot, .file before) := h.find hroot before
  rw [on_writeFile, Path.hasNul_tidy h.noNul, Store.writeFile, hfind]
  simp only [putting, Store.set_set h.vacant, Bool.false_eq_true, if_false]

/-- Without the temporary file the machine is as it was. -/
theorem on_discard (h : m.Free path spot) (hroot : path.root ≠ .none) (content : Bytes) :
    on (Files.discard path.tidy) (m.putting spot content) = (.ok (), m) := by
  have hfind : (m.putting spot content).store.find (m.putting spot content).here path.tidy =
      .ok (spot, .file content) := h.find hroot content
  rw [Run.on_discard, Path.hasNul_tidy h.noNul, Store.removeFile, hfind]
  simp only [putting, Store.erase_set h.vacant, Bool.false_eq_true, if_false]

theorem on_rename (h : m.Free path spot) (hroot : path.root ≠ .none) (content : Bytes)
    (hwritable : m.Writable target place) :
    on (Files.answer (Host.rename path.tidy target)) (m.putting spot content) =
      (.ok (), m.putting place content) := by
  rw [on_rename_of_writable (m := m.putting spot content) (Path.hasNul_tidy h.noNul)
    (h.find hroot content) (hwritable.congr (h.sameDirectories content))]
  simp only [putting, Store.erase_set h.vacant]

theorem on_rename_refused (h : m.Free path spot) (hroot : path.root ≠ .none) (content : Bytes)
    (hrefused : ∀ place, ¬ m.Writable target place) :
    ∃ failure, on (Files.answer (Host.rename path.tidy target)) (m.putting spot content) =
      (.error failure, m.putting spot content) := by
  refine on_rename_of_not_writable (Path.hasNul_tidy h.noNul) (h.find hroot content) ?_
  intro place hwritable
  exact hrefused place (hwritable.congr (h.sameDirectories content).symm)

end Machine.Free

end PageManifest
