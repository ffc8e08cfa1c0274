import PageManifest.Store.Machine

/-!
# Machines under strain

A machine can refuse what its directory tree would allow: a disk is full, a device
fails, a right is taken away.  A strain says of every step whether it is refused, and why;
it may go by all that the machine holds.  A write that is refused has put some of the
content into the file.
-/

namespace PageManifest

/-- The steps that a machine refuses, with the reasons that are given. -/
structure Strain where
  read : Machine → Path → Option OsFault
  status : Machine → Path → Option OsFault
  create : Machine → Path → Option OsFault
  /-- How many octets get into the file, and why no more do. -/
  write : Machine → Path → Option (Nat × OsFault)
  rename : Machine → Path → Path → Option OsFault
  remove : Machine → Path → Option OsFault

namespace Strain

/-- Nothing is refused beyond what the directory tree refuses. -/
def relaxed : Strain where
  read _ _ := none
  status _ _ := none
  create _ _ := none
  write _ _ := none
  rename _ _ _ := none
  remove _ _ := none

/-- What a machine answers, unless the step is refused. -/
def unlessRefused {α : Type} (refusal : Machine → Option OsFault)
    (ask : StateM Machine (Except PathFault α)) : StateM Machine (Except PathFault α) :=
  fun machine =>
    match refusal machine with
    | none => ask machine
    | some fault => (.error (.os fault), machine)

/-- Writes some content, or a part of it if the rest is refused. -/
def writeSome (refusal : Machine → Option (Nat × OsFault))
    (write : Bytes → StateM Machine (Except PathFault Unit)) (content : Bytes) :
    StateM Machine (Except PathFault Unit) :=
  fun machine =>
    match refusal machine with
    | none => write content machine
    | some (count, fault) => (.error (.os fault), (write (content.take count) machine).2)

instance : Host (ReaderT Strain (StateM Machine)) where
  workingDirectory := fun _ => Host.workingDirectory
  readFile path := fun strain => unlessRefused (strain.read · path) (Host.readFile path)
  status path := fun strain => unlessRefused (strain.status · path) (Host.status path)
  createFile path := fun strain => unlessRefused (strain.create · path) (Host.createFile path)
  writeFile path content := fun strain =>
    writeSome (strain.write · path) (Host.writeFile path) content
  rename source target := fun strain =>
    unlessRefused (strain.rename · source target) (Host.rename source target)
  removeFile path := fun strain => unlessRefused (strain.remove · path) (Host.removeFile path)
  freshNames := fun _ => Host.freshNames
  note record := fun _ => Host.note record
  present console logging := fun _ => Host.present console logging
  say message := fun _ => Host.say message

/-- An operation as it goes on a machine under strain. -/
def under {ε α : Type} (strain : Strain) (x : ExceptT ε (ReaderT Strain (StateM Machine)) α) :
    ExceptT ε (StateM Machine) α :=
  ExceptT.mk (x.run strain)

end Strain

end PageManifest
