import PocketShell.Storage.Memory
import PocketShell.Storage.StateFile
import PocketShell.Terminal.Basic
import PocketShell.Terminal.Options

/-!
# The program

A run of the program, from its arguments, what is on the disk and the bytes of its input to what it
prints, its exit code and what it leaves on the disk. Without a state file the session is kept in
memory and forgotten.
-/

namespace PocketShell

/-- What a run of the program leaves behind. -/
structure Report where
  /-- What is printed. -/
  output : String
  exitCode : Nat
  /-- The path of the state file after the run, if there is one. -/
  disk : Option Disk

namespace Options

/-- The settings that the options ask for. -/
def settings (options : Options) : Settings :=
  match options.user with
  | some user => .forUser user
  | none => default

/-- Forgets what a store has of an earlier session, if the options ask for that. -/
def prepare {σ : Type} [Storage σ] (options : Options) (store : σ) : σ :=
  if options.fresh then
    (StorageKeys.ofStem options.settings.stem).all.foldl (fun store key =>
      (Storage.remove store key).2) store
  else store

/-- Begins the session that the options ask for, on a store. -/
def start {σ : Type} [Storage σ] (options : Options) (now : Calendar.Moment) (store : σ) :
    String × Terminal σ :=
  Terminal.start now (.start options.settings (options.prepare store)) options.command

/-- A run with these options on a store. -/
def run {σ : Type} [Storage σ] (options : Options) (clock : Calendar.Clock) (store : σ)
    (inputs : List Input) : String × Terminal σ × Nat :=
  let started := options.start clock.now store
  let others := started.2.run clock.later inputs
  (started.1 ++ others.1, others.2)

end Options

/-- A run of the program by a clock; `disks` is what is on the disk at each path. -/
def Report.ofRun (clock : Calendar.Clock) (args : List String) (disks : String → Disk)
    (bytes : List UInt8) : Report :=
  match Options.parse? args with
  | none => ⟨"", 2, none⟩
  | some .help => ⟨Options.usageText, 0, none⟩
  | some .version => ⟨Options.versionText, 0, none⟩
  | some (.run options) =>
    match options.stateFile with
    | none =>
      match options.run clock ({} : MemoryStore) (Input.all bytes) with
      | (output, _, code) => ⟨output, code, none⟩
    | some path =>
      match options.run clock (StateFile.openAt (disks path)).1 (Input.all bytes) with
      | (output, terminal, code) => ⟨output, code, some terminal.session.store.disk⟩

end PocketShell
