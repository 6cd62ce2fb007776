import PocketShell.Proofs.Path.Composition
import PocketShell.Proofs.Session.Opening

/-!
# Ways home

The lines `cd`, `cd ~` and `cd ~/` all go home, but they read the home directory differently: the
first from the root, the second from the current directory, and the third puts a slash after it
before it is read from there. `Session.GoesTo` says what a line that goes to a place comes to. Main
statement: `Session.goesHomeAlike_iff`, the three agree unless the home directory leads elsewhere
from the root than from the current directory, and to a directory from one of them.
-/

namespace PocketShell

namespace Context

variable {σ : Type}

/-- The place that `cd` goes to. -/
def destination (context : Context σ) : Option String → String
  | some path => context.resolve path
  | none => Path.normalize context.login.home

/-- Where `cd` goes does not depend on the history. -/
theorem destination_record (context : Context σ) (line : String) (path : Option String) :
    (context.record line).destination path = context.destination path := by
  cases path <;> rfl

/-- `~` stands for the home as it is written, which is resolved below the current path. -/
theorem destination_tilde (context : Context σ) :
    context.destination (some "~") =
      Path.resolve context.login.directory context.login.home := by
  have hwhole : Path.expandHome context.login.home "~" = context.login.home := if_pos rfl
  rw [destination, Context.resolve, hwhole]

/-- With a slash after it the home directory is read from the current directory, or, if it is empty,
from the root. -/
theorem destination_tilde_slash (context : Context σ) :
    context.destination (some "~/") = context.destination (some "~") ∨
      context.destination (some "~/") = context.destination none := by
  simp only [destination, Context.resolve]
  by_cases hhome : context.login.home = ""
  · right
    rw [hhome]
    rfl
  · left
    exact Path.resolve_expandHome_slash hhome _

end Context

namespace Command

variable {σ : Type} (context : Context σ) {path : String}

/-- A directory is entered, and nothing shown. -/
theorem enter_of_isDirectory (h : context.files.isDirectory path) (shown : String) :
    enter context shown path = (.silent, { context with login := context.login.enter path }) := by
  rw [FileSystem.isDirectory, Option.any_eq_true] at h
  obtain ⟨node, hnode, hdirectory⟩ := h
  cases node with
  | file content => cases hdirectory
  | directory entries => rw [enter, hnode]

/-- What is no directory is not entered: the fault is shown, and nothing changes. -/
theorem enter_of_not_isDirectory (h : ¬ context.files.isDirectory path) (shown : String) :
    ∃ fault : Fault, enter context shown path =
      (.text ("cd: " ++ shown ++ ": " ++ fault.message), context) := by
  rw [FileSystem.isDirectory] at h
  unfold enter
  split
  · next entries hnode => exact absurd (by rw [hnode]; rfl) h
  · exact ⟨_, rfl⟩
  · exact ⟨_, rfl⟩

/-- Every `cd` enters its destination. -/
theorem exists_changeDirectory_eq (path : Option String) :
    ∃ shown, changeDirectory context path = enter context shown (context.destination path) := by
  cases path with
  | none => exact ⟨context.login.home, by rw [changeDirectory, Context.destination]⟩
  | some path => exact ⟨path, by rw [changeDirectory, Context.destination]⟩

end Command

namespace Session

variable {σ : Type} [Storage σ] {now : Calendar.Moment} {session : Session σ}

/-- The line ends in a place if that is a directory, and shows nothing then; otherwise it shows why
it cannot, and ends where it began. -/
structure GoesTo (now : Calendar.Moment) (session : Session σ) (line place : String) : Prop where
  arrives : session.files.isDirectory place →
    (session.execute now line).1 = .silent ∧
      (session.execute now line).2.login.directory = place
  stays : ¬ session.files.isDirectory place →
    (session.execute now line).1 ≠ .silent ∧
      (session.execute now line).2.login.directory = session.login.directory

/-- A line that runs `cd` without a redirection goes to the destination of its operand. -/
theorem goesTo_destination {line : String} {path : Option String}
    (hcommand : Line.command? line = some (.cd path)) (hplain : Line.redirect? line = none) :
    session.GoesTo now line (session.destination path) := by
  have hrun : (Command.cd path).run now (session.record line) =
      Command.done (Command.changeDirectory (session.record line) path) := by
    rw [Command.run]
  have hplace : (session.record line).destination path = session.destination path :=
    session.destination_record line path
  obtain ⟨shown, hchange⟩ := Command.exists_changeDirectory_eq (session.record line) path
  obtain ⟨store, notices, hpersist⟩ :=
    (Command.changeDirectory (session.record line) path).2.persist_eq session.login
  rw [hplace] at hchange
  constructor
  · intro hdirectory
    have henter := Command.enter_of_isDirectory (session.record line) hdirectory shown
    rw [execute_of_done hcommand hplain hrun, hpersist, hchange, henter]
    exact ⟨rfl, rfl⟩
  · intro hdirectory
    obtain ⟨fault, henter⟩ :=
      Command.enter_of_not_isDirectory (session.record line) hdirectory shown
    rw [execute_of_done hcommand hplain hrun, hpersist, hchange, henter]
    exact ⟨by simp [Outcome.silent], rfl⟩

/-- The lines that go home. -/
def homeLines : List String := ["cd", "cd ~", "cd ~/"]

/-- The lines that go home all succeed and end in one place, or all fail and end where they
began. -/
def GoesHomeAlike (now : Calendar.Moment) (session : Session σ) : Prop :=
  (∃ place, ∀ line ∈ homeLines, (session.execute now line).1 = .silent ∧
    (session.execute now line).2.login.directory = place) ∨
  ∀ line ∈ homeLines, (session.execute now line).1 ≠ .silent ∧
    (session.execute now line).2.login.directory = session.login.directory

/-- Lines that go to two places at most agree if these are one place, or neither is a directory. -/
theorem goesHomeAlike_iff_of_goesTo {fromRoot fromHere third : String}
    (hplain : session.GoesTo now "cd" fromRoot) (htilde : session.GoesTo now "cd ~" fromHere)
    (hslash : session.GoesTo now "cd ~/" third) (hthird : third = fromHere ∨ third = fromRoot) :
    session.GoesHomeAlike now ↔ fromHere = fromRoot ∨
      ¬ session.files.isDirectory fromHere ∧ ¬ session.files.isDirectory fromRoot := by
  simp only [GoesHomeAlike, homeLines, List.forall_mem_cons, List.not_mem_nil]
  constructor
  · rintro (⟨place, hroot, hhere, -⟩ | ⟨hroot, hhere, -⟩)
    · left
      have hrootDirectory : session.files.isDirectory fromRoot :=
        Classical.not_not.mp fun h => (hplain.stays h).1 hroot.1
      have hhereDirectory : session.files.isDirectory fromHere :=
        Classical.not_not.mp fun h => (htilde.stays h).1 hhere.1
      rw [← (hplain.arrives hrootDirectory).2, hroot.2, ← (htilde.arrives hhereDirectory).2,
        hhere.2]
    · right
      exact ⟨fun h => hhere.1 (htilde.arrives h).1, fun h => hroot.1 (hplain.arrives h).1⟩
  · rintro (rfl | ⟨hhere, hroot⟩)
    · obtain rfl : third = fromHere := hthird.elim id id
      by_cases hdirectory : session.files.isDirectory third
      · exact .inl ⟨third, hplain.arrives hdirectory, htilde.arrives hdirectory,
          hslash.arrives hdirectory, nofun⟩
      · exact .inr ⟨hplain.stays hdirectory, htilde.stays hdirectory, hslash.stays hdirectory,
          nofun⟩
    · have hnone : ¬ session.files.isDirectory third := by
        rcases hthird with rfl | rfl
        · exact hhere
        · exact hroot
      exact .inr ⟨hplain.stays hroot, htilde.stays hhere, hslash.stays hnone, nofun⟩

/-- **When all ways home agree.** The lines `cd`, `cd ~` and `cd ~/` all end in one place, or all
fail and stay, if and only if the home directory leads to the same place from the root and from the
current directory, or to a directory from neither. So they always agree if it is an absolute
path. -/
theorem goesHomeAlike_iff (now : Calendar.Moment) (session : Session σ) :
    let home := session.login.home
    let fromRoot := Path.normalize home
    let fromHere := Path.resolve session.login.directory home
    (session.GoesHomeAlike now ↔ fromHere = fromRoot ∨
      ¬ session.files.isDirectory fromHere ∧ ¬ session.files.isDirectory fromRoot) ∧
    (Text.beginsWith "/" home → session.GoesHomeAlike now) := by
  intro home fromRoot fromHere
  have hplain : session.GoesTo now "cd" (session.destination none) :=
    goesTo_destination (by decide +kernel) (by decide +kernel)
  have htilde : session.GoesTo now "cd ~" (session.destination (some "~")) :=
    goesTo_destination (by decide +kernel) (by decide +kernel)
  have hslash : session.GoesTo now "cd ~/" (session.destination (some "~/")) :=
    goesTo_destination (by decide +kernel) (by decide +kernel)
  have hiff := goesHomeAlike_iff_of_goesTo hplain htilde hslash session.destination_tilde_slash
  rw [session.destination_tilde] at hiff
  refine ⟨hiff, fun habsolute => hiff.mpr (.inl ?_)⟩
  exact Path.resolve_of_beginsWith habsolute

/-- With the home directory of a new session all ways home agree. -/
theorem goesHomeAlike_of_new :
    let session := start (Settings.forUser "user") (MemoryStore.mk ∅)
    Text.beginsWith "/" session.login.home ∧ session.GoesHomeAlike ⟨0, 0⟩ := by
  intro session
  have habsolute : Text.beginsWith "/" session.login.home := by decide +kernel
  exact ⟨habsolute, (goesHomeAlike_iff ⟨0, 0⟩ session).2 habsolute⟩

/-- A home directory that is relative, and one that is empty. -/
theorem not_goesHomeAlike_of_export :
    let session := start (Settings.forUser "user") (MemoryStore.mk ∅)
    let relative := (session.execute ⟨0, 0⟩ "export HOME=tmp").2
    let empty := (session.execute ⟨0, 0⟩ "export HOME=").2
    (¬ relative.GoesHomeAlike ⟨0, 0⟩ ∧
        (relative.execute ⟨0, 0⟩ "cd").2.login.directory = "/tmp" ∧
        (relative.execute ⟨0, 0⟩ "cd ~").1 = .text "cd: ~: No such file or directory") ∧
      ¬ empty.GoesHomeAlike ⟨0, 0⟩ ∧
        (empty.execute ⟨0, 0⟩ "cd").2.login.directory = "/" ∧
        (empty.execute ⟨0, 0⟩ "cd ~").2.login.directory = "/home/user" := by
  intro session relative empty
  obtain ⟨hsilent, htmp, hgone⟩ : (relative.execute ⟨0, 0⟩ "cd").1 = .silent ∧
      (relative.execute ⟨0, 0⟩ "cd").2.login.directory = "/tmp" ∧
      (relative.execute ⟨0, 0⟩ "cd ~").1 = .text "cd: ~: No such file or directory" := by
    decide +kernel
  obtain ⟨hentered, hroot, hstayed⟩ : (empty.execute ⟨0, 0⟩ "cd").1 = .silent ∧
      (empty.execute ⟨0, 0⟩ "cd").2.login.directory = "/" ∧
      (empty.execute ⟨0, 0⟩ "cd ~").2.login.directory = "/home/user" := by
    decide +kernel
  refine ⟨⟨?_, htmp, hgone⟩, ?_, hroot, hstayed⟩
  · rintro (⟨place, hall⟩ | hall)
    · have htilde := (hall "cd ~" (by decide)).1
      rw [hgone] at htilde
      exact absurd htilde (by decide)
    · exact (hall "cd" (by decide)).1 hsilent
  · rintro (⟨place, hall⟩ | hall)
    · have hsame := (hall "cd" (by decide)).2.trans (hall "cd ~" (by decide)).2.symm
      rw [hroot, hstayed] at hsame
      exact absurd hsame (by decide)
    · exact (hall "cd" (by decide)).1 hentered

end Session

end PocketShell
