import PocketShell.Proofs.Session.Directory
import PocketShell.Proofs.Session.Signal
import PocketShell.Proofs.Tree.Fault

/-!
# Requests for the editor

A line makes a request for the editor only by the command `vi`, which looks first whether the file
can be written. What happens to the output of the line cannot spoil that: a write makes no
directory. Main statement: `Session.awaits_of_asked`, after the line the file of its request can be
written, and is named by its normal path.
-/

namespace PocketShell

/-! ## Places for a file -/

namespace FileSystem

variable {files : FileSystem} {path : String}

/-- A file that is seen at the components of a path can be read at that path. -/
theorem read_eq_ok_of_kind? {content : String}
    (h : files.root.pathMap.kind? (Path.components path) = some (.file content)) :
    files.read path = .ok content := by
  obtain ⟨node, hnode, hkind⟩ := Option.map_eq_some_iff.mp h
  cases node with
  | directory entries => cases hkind
  | file found =>
    cases hkind
    rw [read, lookup?, hnode]

/-- A file can be written where a directory is there to hold it and none is in its place. -/
theorem writable_iff : files.root.pathMap.Writable (Path.components path) ↔
    Path.components path ≠ [] ∧ files.isDirectory (Path.parent path) ∧
      ¬ files.isDirectory path := by
  rw [isDirectory_iff, isDirectory_iff, Path.components_parent]
  constructor
  · rintro ⟨parent, name, hsplit, hparent, hplace⟩
    exact ⟨by simp [hsplit], by rwa [hsplit, List.dropLast_concat], hplace⟩
  · rintro ⟨hname, hparent, hplace⟩
    exact ⟨_, _, (List.dropLast_append_getLast hname).symm, hparent, hplace⟩

/-- A directory is not written over. -/
theorem edit_write_of_isDirectory (h : files.isDirectory path) (content : String)
    (mode : WriteMode) : files.edit path (.write content mode) = .error .isADirectory :=
  edit_eq_error_iff.mpr (.inr h)

/-- A write makes no directory. -/
theorem isDirectory_of_attempt_write {place content : String} {mode : WriteMode}
    (h : (files.attempt place (.write content mode)).2.isDirectory path) :
    files.isDirectory path := by
  cases hedit : files.edit place (.write content mode) with
  | error fault => rwa [attempt_of_error hedit] at h
  | ok after =>
    rw [attempt_of_ok hedit] at h
    exact isDirectory_iff.mpr ((edit_effect hedit).directory_of_write (isDirectory_iff.mp h))

end FileSystem

/-! ## Requests -/

namespace Command

variable {σ : Type} [Storage σ]

/-- Only `vi` makes a request, and for a file that can be written. -/
theorem request_run (now : Calendar.Moment) (context : Context σ) (command : Command) :
    (run now context command).2.request = context.request ∨
      ∃ operand content, contentToEdit context.files (context.resolve operand) = .ok content ∧
        run now context command = (.ok .editorOpened,
          { context with request := some ⟨context.resolve operand, content⟩ }) := by
  cases command with
  | vi path =>
    cases path with
    | none => exact .inl rfl
    | some operand =>
      rw [run, openEditor]
      cases hcontent : contentToEdit context.files (context.resolve operand) with
      | ok content => exact .inr ⟨operand, content, hcontent, by simp only [done]⟩
      | error fault => exact .inl (by simp only [done_snd])
  | help | ls | pwd | cat | echo | clear | whoami | date | uname | env | history | ps | tree |
    cd | «export» | unset | mkdir | touch | rm | su =>
    exact .inl ((changesOnly_run now context _).same .request (by simp [part?]))
  | reset confirmed =>
    refine .inl ((changesOnly_run now context _).same .request ?_)
    cases confirmed <;> simp [part?]

end Command

namespace Context

variable {σ : Type}

/-- A request is for a file that can be written, and names it by its normal path. -/
structure Awaits (context : Context σ) (request : EditRequest) : Prop where
  normal : Path.IsNormal request.path
  writable : context.files.root.pathMap.Writable (Path.components request.path)

/-- Writing an output attempts to write its text to the target. -/
theorem files_write (context : Context σ) (redirect : Redirect) (outcome : Outcome) :
    (context.write redirect outcome).2.files =
      (context.files.attempt (context.resolve redirect.target)
        (.write (outcome.text?.getD "") redirect.mode)).2 := by
  rw [Context.write, edit_snd]

/-- Writing an output leaves the requested file one that can be written: a file may come, but no
directory. -/
theorem Awaits.write {context : Context σ} {request : EditRequest} (h : context.Awaits request)
    (redirect : Redirect) (outcome : Outcome) :
    (context.write redirect outcome).2.Awaits request := by
  refine ⟨h.normal, ?_⟩
  obtain ⟨hname, hparent, hplace⟩ := FileSystem.writable_iff.mp h.writable
  rw [files_write]
  exact FileSystem.writable_iff.mpr ⟨hname, FileSystem.isDirectory_attempt hparent,
    fun hdirectory => hplace (FileSystem.isDirectory_of_attempt_write hdirectory)⟩

/-- Writing an output leaves the request alone. -/
theorem request_write (context : Context σ) (redirect : Redirect) (outcome : Outcome) :
    (context.write redirect outcome).2.request = context.request := by
  rw [write, edit_snd]

variable [Storage σ]

/-- A request that a line makes is for a file that can be written, also after its output is. -/
theorem awaits_answer (now : Calendar.Moment) {context : Context σ} {line : Line}
    {request : EditRequest} (hnone : context.request = none)
    (h : (context.answer now line).2.request = some request) :
    (context.answer now line).2.Awaits request := by
  unfold answer at h ⊢
  cases hcommand : Command.parse? line.name line.args with
  | none => simp [hcommand, hnone] at h
  | some command =>
    simp only [hcommand] at h ⊢
    rcases Command.request_run now context command with hrun | ⟨operand, content, hcontent, hrun⟩
    · -- Nothing but the command could have made the request.
      rw [hnone] at hrun
      generalize command.run now context = ran at h hrun ⊢
      obtain ⟨result, after⟩ := ran
      have hafter : after.request = none := hrun
      cases result with
      | error error => exact absurd (h.symm.trans hafter) (by simp)
      | ok outcome =>
        cases hredirect : line.redirect with
        | none =>
          simp only [hredirect] at h
          exact absurd (h.symm.trans hafter) (by simp)
        | some redirect =>
          simp only [hredirect, divert_eq, request_write] at h
          exact absurd (h.symm.trans hafter) (by simp)
    · have hasked : Awaits { context with request := some ⟨context.resolve operand, content⟩ }
          ⟨context.resolve operand, content⟩ :=
        ⟨Path.normalize_resolve _ _, Command.writable_of_contentToEdit hcontent⟩
      rw [hrun] at h ⊢
      cases hredirect : line.redirect with
      | none =>
        obtain rfl : _ = request := by simpa [hredirect] using h
        simpa [hredirect] using hasked
      | some redirect =>
        obtain rfl : _ = request := by simpa [hredirect, divert_eq, request_write] using h
        simpa [hredirect, divert_eq] using hasked.write redirect .editorOpened

/-- A request that comes of a text is for a file that can be written. -/
theorem awaits_dispatch (now : Calendar.Moment) {context : Context σ} {input : String}
    {request : EditRequest} (hnone : context.request = none)
    (h : (context.dispatch now input).2.request = some request) :
    (context.dispatch now input).2.Awaits request := by
  rw [dispatch] at h ⊢
  cases hparse : Line.parse input with
  | error error => simp [hparse, hnone] at h
  | ok line? =>
    cases line? with
    | none => simp [hparse, hnone] at h
    | some line =>
      simp only [hparse] at h ⊢
      exact awaits_answer now hnone h

/-- What is true of the request of a context is true when its changes have been saved. -/
theorem awaits_persist {context : Context σ} {request : EditRequest}
    (hcontext : context.request = some request → context.Awaits request) (before : Login)
    (h : (context.persist before).request = some request) :
    (context.persist before).Awaits request := by
  obtain ⟨store, notices, hpersist⟩ := context.persist_eq before
  rw [hpersist] at h ⊢
  exact ⟨(hcontext h).normal, (hcontext h).writable⟩

end Context

namespace Session

variable {σ : Type} [Storage σ]

/-- What an earlier request makes no difference to. -/
theorem files_execute_takeRequest (now : Calendar.Moment) (session : Session σ) (input : String) :
    (session.execute now input).2.files = (session.takeRequest.2.execute now input).2.files := by
  rw [(execute_takeRequest now session input).2]
  generalize (session.takeRequest.2.execute now input).2.toContext = context
  rfl

/-- A request that a host finds after a line is for a file that can be written then. -/
theorem awaits_of_asked {now : Calendar.Moment} {session : Session σ} {input : String}
    {request : EditRequest} (h : session.asked now input = some request) :
    (session.execute now input).2.toContext.Awaits request := by
  suffices hasked : (session.takeRequest.2.execute now input).2.toContext.Awaits request from
    ⟨hasked.normal, files_execute_takeRequest now session input ▸ hasked.writable⟩
  rw [asked] at h
  by_cases hblank : Text.isAllBlank input
  · rw [execute_of_blank now _ hblank] at h
    cases h
  · rw [execute_of_not_blank now _ hblank] at h ⊢
    have hdispatch : ((session.takeRequest.2.record input).dispatch now input).2.request =
        some request → ((session.takeRequest.2.record input).dispatch now input).2.Awaits request :=
      Context.awaits_dispatch now rfl
    generalize (session.takeRequest.2.record input).dispatch now input = dispatched
      at h hdispatch ⊢
    exact Context.awaits_persist hdispatch _ h

end Session

end PocketShell
