import PageManifest.Failure
import PageManifest.Store.Basic

/-!
# Machines held as values

A machine is a directory tree with a working directory, and what has been said and
noted on it.  How that is shown is settled apart from it, and changes nothing else.
-/

namespace PageManifest

structure Machine where
  store : Store
  here : Location
  fresh : List FreshName
  console : Terminal.Console
  logging : Option Log.Setup
  said : List Terminal.Message
  noted : List Log.Record
  deriving DecidableEq, Repr

namespace Machine

/-- A machine with a directory tree and nothing said yet. -/
def start (store : Store) (here : Location) (fresh : List FreshName) : Machine :=
  ⟨store, here, fresh, .standard, none, [], []⟩

/-- What has been written as output. -/
def output (machine : Machine) : Text :=
  machine.said.flatMap machine.console.written

/-- What has been written as log; without a setup nothing is. -/
def log (machine : Machine) : Text :=
  match machine.logging with
  | some setup => machine.noted.flatMap setup.written
  | none => []

/-- What asking a machine yields for paths that may hold a NUL. -/
def asking {α : Type} (paths : List Path) (name : OsFault.Cause → OsFault)
    (ask : Machine → Except OsFault.Cause (α × Store)) :
    StateM Machine (Except PathFault α) := fun machine =>
  if paths.any Path.hasNul then (.error .nul, machine)
  else
    match ask machine with
    | .error cause => (.error (.os (name cause)), machine)
    | .ok (a, store) => (.ok a, { machine with store := store })

instance : Host (StateM Machine) where
  workingDirectory := fun machine => (⟨.slash, machine.here⟩, machine)
  readFile path := asking [path] (fun cause => OsFault.on cause path.toString) fun machine =>
    (machine.store.readFile machine.here path).map (·, machine.store)
  status path := asking [path] (fun cause => OsFault.on cause path.toString) fun machine =>
    (machine.store.status machine.here path).map (·, machine.store)
  createFile path := asking [path] (fun cause => OsFault.on cause path.toString) fun machine =>
    (machine.store.createFile machine.here path).map ((), ·)
  writeFile path content :=
    asking [path] (fun cause => OsFault.on cause path.toString) fun machine =>
      (machine.store.writeFile machine.here path content).map ((), ·)
  rename source target :=
    asking [source, target]
      (fun cause => OsFault.onMove cause source.toString target.toString) fun machine =>
        (machine.store.rename machine.here source target).map ((), ·)
  removeFile path := asking [path] (fun cause => OsFault.on cause path.toString) fun machine =>
    (machine.store.removeFile machine.here path).map ((), ·)
  freshNames := fun machine => (machine.fresh, machine)
  note r := fun machine => ((), { machine with noted := machine.noted ++ [r] })
  present console logging := fun machine =>
    ((), { machine with console := console, logging := logging })
  say message := fun machine => ((), { machine with said := machine.said ++ [message] })

end Machine

end PageManifest
