import PocketShell.Proofs.Path.Normal
import PocketShell.Proofs.Session.Beginning
import PocketShell.Proofs.Session.Redirection

/-!
# How the current directory is written

A command enters a directory under its normal path only, and the variable `PWD` and the command
`pwd` follow the current directory. But a session begins in a directory that is written as it was
stored, or as the name of its user makes it, and both may have detours. Main statement:
`Session.isNormal_directory_after_iff`, on what it depends that the current directory is always
written in its normal form.
-/

namespace PocketShell

/-- The home directory of a user is named by a normal path if the user is the superuser, or if
nothing in the name is to be resolved. -/
theorem User.isNormal_home_iff (user : String) :
    Path.IsNormal (home user) ↔
      user = superuser ∨ ∀ piece ∈ Text.pieces '/' user, Path.IsComponent piece := by
  by_cases huser : user = superuser
  · have hroot : Path.IsNormal "/root" := by decide +kernel
    simp [home, huser, hroot]
  · have hhome : home user = "/" ++ ("home" ++ "/" ++ user) := by
      rw [home, if_neg huser, ← String.append_assoc, ← String.append_assoc]
      rfl
    have hpieces : Text.pieces '/' ("home" ++ "/" ++ user) = "home" :: Text.pieces '/' user :=
      Text.pieces_append '/' "home" user
    have hname : Path.IsComponent "home" := by decide
    rw [hhome, Path.isNormal_append_iff (by simp), hpieces, List.forall_mem_cons]
    simp [huser, hname]

namespace Context

variable {σ : Type}

/-- The current directory is the one of the beginning or written in normal form, and `PWD` shows
it. -/
structure Placed (first : String) (context : Context σ) : Prop where
  normal : context.login.directory = first ∨ Path.IsNormal context.login.directory
  shown : context.login.environment.get? "PWD" = some context.login.directory

/-- A step enters normal paths only, and sets `PWD` to them. -/
theorem Placed.act {first : String} {before after : Context σ} (h : Act before after)
    (hbefore : before.Placed first) : after.Placed first := by
  obtain ⟨hnormal, hshown⟩ := hbefore
  cases h with
  | edit | ask | report => exact ⟨hnormal, hshown⟩
  | @enter path =>
    exact ⟨.inr (Path.isNormal_normalize path), by simp [Login.enter, Named.get?_put]⟩
  | become => exact ⟨hnormal, by simpa [Login.become, Named.get?_put] using hshown⟩
  | @define name value _ hwritable =>
    have hname : name ≠ "PWD" := by
      rintro rfl
      exact hwritable (by decide)
    exact ⟨hnormal, by simpa [Login.define, Named.get?_put, hname] using hshown⟩
  | @undefine name _ hfree =>
    have hname : name ≠ "PWD" := by
      rintro rfl
      exact hfree (by decide)
    exact ⟨hnormal, (Named.get?_erase_of_ne _ hname).trans hshown⟩

/-- A change leaves the current path the first one or a normal one, with `PWD` beside it. -/
theorem Placed.change {first : String} {before after : Context σ} (h : Change before after)
    (hbefore : before.Placed first) : after.Placed first := by
  cases h with
  | act hact => exact hbefore.act hact
  | record | handOver | settle => exact ⟨hbefore.normal, hbefore.shown⟩

end Context

namespace Session

variable {σ : Type} [Storage σ]

/-- `pwd` shows the current path as it is. -/
theorem execute_pwd (now : Calendar.Moment) (session : Session σ) :
    (session.execute now "pwd").1 = .text session.login.directory := by
  have hline : Line.parse "pwd" = .ok (some ⟨"pwd", [], none⟩) := rfl
  rw [execute_of_parse now session hline]
  rfl

/-- A session starts at its first path, which `PWD` shows. -/
theorem placed_start (settings : Settings) (store : σ) :
    (start settings store).toContext.Placed (start settings store).login.directory := by
  obtain ⟨changed, after, notices, hstart⟩ := exists_start_eq settings store
  refine ⟨.inl rfl, ?_⟩
  rw [hstart]
  rfl

/-- After any calls the current path is the first one or a normal one, and `PWD` shows it. -/
theorem placed_after (settings : Settings) (store : σ) (calls : List Call) :
    ((start settings store).after calls).toContext.Placed
      (start settings store).login.directory :=
  after_keeps (·.Placed _) (fun _ _ hchange => .change hchange) (placed_start settings store) calls

/-- A session begins in the directory that is stored, as it is written there, else at home as the
name of the user makes it, else in the root. -/
theorem isNormal_startDirectory_iff (files : FileSystem) (user : String)
    (earlier : Option String) :
    Path.IsNormal (startDirectory files (User.home user) earlier) ↔
      match earlier.filter fun path => files.isDirectory path with
      | some path => Path.IsNormal path
      | none => files.isDirectory (User.home user) →
          user = User.superuser ∨ ∀ piece ∈ Text.pieces '/' user, Path.IsComponent piece := by
  rw [startDirectory]
  cases earlier.filter fun path => files.isDirectory path with
  | some path => rfl
  | none =>
    by_cases hhome : files.isDirectory (User.home user)
    · simp [hhome, User.isNormal_home_iff]
    · have hroot : Path.IsNormal "/" := by decide +kernel
      simp [hhome, hroot]

/-- **When the current directory is written in its normal form.** After any calls it is the
directory of the beginning or written in normal form, `PWD` has it and `pwd` shows it. So it is
always in normal form if and only if it is so at the beginning: if the stored path in which the
session begins is written in that form; or, where it begins at home, if the user is the superuser or
nothing in the name of the user is to be resolved. -/
theorem isNormal_directory_after_iff (settings : Settings) (store : σ) :
    let session := start settings store
    let stored := (Restored.load (.ofStem settings.stem) store).directory
    let earlier := if settings.startInHome then none else stored
    ((∀ calls, Path.IsNormal (session.after calls).login.directory) ↔
        match earlier.filter fun path => session.files.isDirectory path with
        | some path => Path.IsNormal path
        | none => session.files.isDirectory (User.home settings.user) →
            settings.user = User.superuser ∨
              ∀ piece ∈ Text.pieces '/' settings.user, Path.IsComponent piece) ∧
      ∀ calls,
        let directory := (session.after calls).login.directory
        (directory = session.login.directory ∨ Path.IsNormal directory) ∧
          (session.after calls).login.environment.get? "PWD" = some directory ∧
          ∀ now, ((session.after calls).execute now "pwd").1 = .text directory := by
  intro session stored earlier
  have hplaced (calls : List Call) :
      (session.after calls).toContext.Placed session.login.directory :=
    placed_after settings store calls
  have hstart : session.login.directory =
      startDirectory session.files (User.home settings.user) earlier := by
    obtain ⟨changed, after, notices, hstart⟩ := exists_start_eq settings store
    rw [hstart, login_opening]
    rfl
  refine ⟨?_, fun calls => ⟨(hplaced calls).normal, (hplaced calls).shown,
    fun now => execute_pwd now _⟩⟩
  rw [← isNormal_startDirectory_iff, ← hstart]
  constructor
  · intro hcalls
    exact hcalls []
  · intro hfirst calls
    rcases (hplaced calls).normal with hsame | hnormal
    · rw [hsame]
      exact hfirst
    · exact hnormal

/-- A stored path with a detour, a stored path that does not begin at the root, and a user without a
name. -/
theorem not_isNormal_directory_start :
    let settings := { Settings.forUser "user" with startInHome := false }
    let stored (path : String) : MemoryStore :=
      ⟨.ofList [("ripline_current_path", Json.quote path)]⟩
    ¬ Path.IsNormal (start settings (stored "/tmp/../etc")).login.directory ∧
      ¬ Path.IsNormal (start settings (stored "etc")).login.directory ∧
      ¬ Path.IsNormal (start (.forUser "") (MemoryStore.mk ∅)).login.directory := by
  decide +kernel

end Session

end PocketShell
