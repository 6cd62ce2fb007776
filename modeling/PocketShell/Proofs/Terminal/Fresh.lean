import PocketShell.Proofs.Session.Agreement
import PocketShell.Proofs.Storage.Reopening
import PocketShell.Proofs.Terminal.Lockstep

/-!
# Runs that begin afresh

The option `--fresh` takes what an earlier session has kept out of the state file before the session
begins. What is left are texts under other keys, which the session neither reads nor writes; so the
run is the same as on a path where nothing stands. Main statement: `Report.ofRun_of_fresh`.
-/

namespace PocketShell

open ObedientStorage (Obeys)

/-! ## State files -/

/-- A settled file stays so whatever a session saves, and its disk refuses nothing. -/
theorem StateFile.keeps_settled : Storage.Keeps StateFile.Settled where
  save _ key value h := (h.carryOut (.save key value)).2
  remove _ key h := (h.carryOut (.remove key)).2

/-- What is found in a settled file that is opened anew is what the store has now. -/
theorem StateFile.Settled.text?_eq {file : StateFile} (h : file.Settled) (key : String) :
    file.disk.text? key = Storage.load file key :=
  congrArg (Storage.load · key) h.reopen_eq

namespace Session

/-- Two sessions that agree under their keys, on state files that would be read as they are. -/
structure FilesAgree (keys : StorageKeys) (others : String → Option String)
    (first second : Session StateFile) : Prop where
  agree : first.Agree keys others second
  settled : first.store.Settled
  settled' : second.store.Settled

/-- Sessions that agree under their keys go on in step, and their files stay settled. -/
theorem lockstep_filesAgree (keys : StorageKeys) (others : String → Option String) :
    Lockstep (FilesAgree keys others) where
  view_eq h := h.agree.alike.view_eq
  call {first second} h call := by
    obtain ⟨hreply, hafter⟩ := h.agree.call call
    have hsettled := (keeps_call StateFile.keeps_settled call h.settled).1
    have hsettled' := (keeps_call StateFile.keeps_settled call h.settled').1
    exact ⟨hreply, hafter, hsettled, hsettled'⟩

end Session

/-! ## Runs -/

namespace Options

variable {options : Options}

/-- The keys of a session with these options. -/
def keys (options : Options) : StorageKeys :=
  .ofStem options.settings.stem

section
variable {σ τ : Type} [Storage σ] [KeepingStorage σ] [ObedientStorage σ] [Storage τ]
  [KeepingStorage τ] [ObedientStorage τ]

/-- On a store that obeys, removing keys one by one comes to the same as removing them until one
fails: none does. -/
theorem foldl_remove_eq (keys : List String) {store : σ} (h : Obeys store) :
    keys.foldl (fun store key => (Storage.remove store key).2) store =
      (Command.removeAll keys store).2 := by
  induction keys generalizing store with
  | nil => rfl
  | cons key keys ih =>
    obtain ⟨next, hremove, hnext, -⟩ := ObedientStorage.remove_eq store key h
    rw [List.foldl_cons, Command.removeAll, hremove, ih hnext]

/-- To begin afresh removes the keys of the session. -/
theorem prepare_of_fresh (hfresh : options.fresh = true) {store : σ} (h : Obeys store) :
    options.prepare store = (Command.removeAll options.keys.all store).2 := by
  rw [prepare, if_pos hfresh]
  exact foldl_remove_eq _ h

/-- Whatever two stores have had, they agree once they are prepared to begin afresh. -/
theorem agree_prepare (hfresh : options.fresh = true) {first : σ} {second : τ}
    (h : Obeys first) (h' : Obeys second) :
    Storage.Agree options.keys.all (Storage.load first) (options.prepare first)
      (options.prepare second) := by
  rw [prepare_of_fresh hfresh h, prepare_of_fresh hfresh h']
  obtain ⟨after, hremove, hobeys, hload⟩ := Command.exists_removeAll_eq options.keys.all h
  obtain ⟨after', hremove', hobeys', hload'⟩ := Command.exists_removeAll_eq options.keys.all h'
  rw [hremove, hremove']
  refine ⟨hobeys, hobeys', fun key hkey => ?_, fun key hkey => ?_⟩
  · rw [hload, hload', if_pos hkey, if_pos hkey]
  · rw [hload, if_neg hkey]

end

/-- A settled file is still settled when a run has begun afresh on it. -/
theorem settled_prepare (hfresh : options.fresh = true) {file : StateFile} (h : file.Settled) :
    (options.prepare file).Settled := by
  rw [prepare_of_fresh hfresh h.writable]
  exact Command.keeps_removeAll StateFile.keeps_settled _ h

/-- Runs that begin afresh on two state files are in lockstep. -/
theorem run_of_fresh (hfresh : options.fresh = true) {first second : StateFile}
    (h : first.Settled) (h' : second.Settled) (clock : Calendar.Clock) (inputs : List Input) :
    let ran := options.run clock first inputs
    let ran' := options.run clock second inputs
    ran.1 = ran'.1 ∧
      ran.2.1.session.FilesAgree options.keys (Storage.load first) ran'.2.1.session ∧
      ran.2.2 = ran'.2.2 := by
  -- The texts under other keys are those of the first file, which the removal has left alone.
  have hR := Session.lockstep_filesAgree options.keys (Storage.load first)
  have hobeys : Obeys first := h.writable
  have hobeys' : Obeys second := h'.writable
  have hagree := Session.agree_start options.settings (agree_prepare hfresh hobeys hobeys')
  have hsettled := (Session.keeps_start StateFile.keeps_settled options.settings
    (settled_prepare hfresh h)).1
  have hsettled' := (Session.keeps_start StateFile.keeps_settled options.settings
    (settled_prepare hfresh h')).1
  obtain ⟨hshown, hstart⟩ := Terminal.related_start hR clock.now ⟨hagree, hsettled, hsettled'⟩
    options.command
  obtain ⟨hothers, hlast, hcode⟩ := hstart.run hR inputs clock.later
  intro ran ran'
  exact ⟨congrArg₂ (· ++ ·) hshown hothers, hlast.session, hcode⟩

end Options

namespace Report

/-- The text that a run leaves under a key of the state file. -/
def text? (report : Report) (key : String) : Option String :=
  report.disk.bind (·.text? key)

/-- A run with a state file opens it first and leaves the disk as its session left it. -/
theorem ofRun_stateFile {args : List String} {options : Options} {path : String}
    (hargs : Options.parse? args = some (.run options)) (hpath : options.stateFile = some path)
    (clock : Calendar.Clock) (disks : String → Disk) (bytes : List UInt8) :
    let ran := options.run clock (StateFile.openAt (disks path)).1 (Input.all bytes)
    ofRun clock args disks bytes = ⟨ran.1, ran.2.2, some ran.2.1.session.store.disk⟩ := by
  simp only [ofRun, hargs, hpath]

/-- **A run that begins afresh ignores what the state file held.** If the path can be written to,
then whatever stands there, the run prints and ends as if nothing stood there, and leaves the same
under the keys of the session; what was found under other keys is there after it. -/
theorem ofRun_of_fresh {args : List String} {options : Options} {path : String}
    (hargs : Options.parse? args = some (.run options)) (hpath : options.stateFile = some path)
    (hfresh : options.fresh = true) {disks : String → Disk} (hdisk : (disks path).refusal = none)
    (clock : Calendar.Clock) (bytes : List UInt8) :
    let found := ofRun clock args disks bytes
    let blank := ofRun clock args (Function.update disks path {}) bytes
    found.output = blank.output ∧ found.exitCode = blank.exitCode ∧
      (∀ key ∈ options.keys.all, found.text? key = blank.text? key) ∧
      ∀ key ∉ options.keys.all, found.text? key = (disks path).text? key := by
  have hsettled := StateFile.settled_openAt hdisk
  have hsettled' : (StateFile.openAt (Function.update disks path {} path)).1.Settled := by
    rw [Function.update_self]
    exact StateFile.settled_openAt rfl
  obtain ⟨houtput, hsession, hcode⟩ :=
    options.run_of_fresh hfresh hsettled hsettled' clock (Input.all bytes)
  have hstores := hsession.agree.context.stores
  intro found blank
  simp only [found, blank, ofRun_stateFile hargs hpath, text?, Option.bind_some,
    hsession.settled.text?_eq, hsession.settled'.text?_eq]
  exact ⟨houtput, hcode, hstores.own, hstores.others⟩

/-- The tree of an earlier session, which has no home, and a text of somebody else's. -/
theorem ofRun_of_fresh_earlier :
    let args := ["--fresh", "--state-file", "state.json", "-u", "alice"]
    let options : Options := { user := some "alice", stateFile := some "state.json", fresh := true }
    let kept := "\x7b\"ripline_filesystem\": \"\x7b\x7d\", \"k\": \"1\"\x7d"
    let disks (_ : String) : Disk := { content := .text kept }
    let clock := Calendar.Clock.still ⟨0, 0⟩
    let bytes := [0x70, 0x77, 0x64, 0x0A]
    let found := ofRun clock args disks bytes
    let blank := ofRun clock args (Function.update disks "state.json" {}) bytes
    (disks "state.json").text? "k" = some "1" ∧
      found.output = blank.output ∧ found.exitCode = blank.exitCode ∧
      (∀ key ∈ options.keys.all, found.text? key = blank.text? key) ∧
      ∀ key ∉ options.keys.all, found.text? key = (disks "state.json").text? key := by
  intro args options kept disks clock bytes
  have hargs : Options.parse? args = some (.run options) := by decide +kernel
  exact ⟨by decide +kernel, ofRun_of_fresh hargs rfl rfl rfl clock bytes⟩

end Report

end PocketShell
