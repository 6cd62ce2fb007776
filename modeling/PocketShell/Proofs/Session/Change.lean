import PocketShell.Proofs.Command.Act
import PocketShell.Session.Call

/-!
# What a call can do to a session

Beside the steps of commands, the course of a session has three more: a line is recorded, the
request for the editor is handed over, and the store is dealt with. `Context.Change` lists them all.
What every change keeps, every sequence of calls keeps (`Session.after_keeps`).
-/

namespace PocketShell

namespace Context

variable {σ : Type}

/-- A change in the course of a session. -/
inductive Change : Context σ → Context σ → Prop
  | act {before after : Context σ} : Act before after → Change before after
  | record (context : Context σ) (line : String) : Change context (context.record line)
  | handOver (context : Context σ) : Change context { context with request := none }
  /-- Texts are saved or taken out of the store. -/
  | settle (context : Context σ) (changed : Bool) (store : σ) (notices : List Notice) :
      Change context { context with files := { context.files with changed }, store, notices }

/-- One context comes of another by changes. -/
abbrev Becomes : Context σ → Context σ → Prop :=
  Relation.ReflTransGen Change

/-- What comes about by the steps of a command comes about by changes. -/
theorem Reaches.becomes {before after : Context σ} (h : Reaches before after) :
    Becomes before after :=
  Relation.ReflTransGen.mono (fun _ _ => Change.act) _ _ h

end Context

namespace Session

open Context

variable {σ : Type} [Storage σ]

/-- A line goes by changes: it is recorded, its command goes by steps or forgets what is stored, and
the result is saved. -/
theorem becomes_execute (now : Calendar.Moment) (session : Session σ) (input : String) :
    Becomes session.toContext (session.execute now input).2.toContext := by
  by_cases hblank : Text.isAllBlank input
  · rw [execute_of_blank now session hblank]
  · rw [execute_of_not_blank now session hblank]
    obtain ⟨store, notices, -, hreaches⟩ :=
      (session.toContext.record input).reaches_dispatch now input
    obtain ⟨store', notices', hpersist⟩ :=
      ((session.toContext.record input).dispatch now input).2.persist_eq session.login
    rw [hpersist]
    have hrecord := Change.record session.toContext input
    have hstore := Change.settle (session.toContext.record input)
      (session.toContext.record input).files.changed store notices
    exact ((Relation.ReflTransGen.single hrecord).tail hstore).trans
      (hreaches.becomes.tail (.settle _ false store' notices'))

/-- A save of the editor goes by changes: an edit, and the saving of the tree. -/
theorem becomes_saveFile (session : Session σ) (path content : String) :
    Becomes session.toContext (session.saveFile path content).2.toContext := by
  cases hedit : session.files.edit (Path.resolve session.login.directory path)
      (.write content .overwrite) with
  | error fault => rw [saveFile_of_error session hedit]
  | ok files =>
    rw [saveFile_of_ok session hedit]
    obtain ⟨store, notices, hpersist⟩ := Context.persistTree_eq { session.toContext with files }
    rw [hpersist]
    have hact := Act.edit session.toContext (Path.resolve session.login.directory path)
      (.write content .overwrite)
    rw [FileSystem.attempt_of_ok hedit] at hact
    exact hact.reaches.becomes.tail (.settle _ false store notices)

/-- Whatever a call does, it does by changes. -/
theorem becomes_call (session : Session σ) (call : Call) :
    Becomes session.toContext (session.call call).2.toContext := by
  cases call with
  | execute now line => rw [call_execute_snd]; exact becomes_execute now session line
  | saveFile path content => rw [call_saveFile_snd]; exact becomes_saveFile session path content
  | complete input => rw [call_complete_snd]
  | takeRequest => rw [call_takeRequest_snd]; exact .single (.handOver session.toContext)

/-- What every change keeps, every sequence of calls keeps. -/
theorem after_keeps (p : Context σ → Prop)
    (hchange : ∀ before after : Context σ, Change before after → p before → p after)
    {session : Session σ} (h : p session.toContext) (calls : List Call) :
    p (session.after calls).toContext :=
  after_induction (p ·.toContext)
    (fun session call _ => keeps_of_steps p hchange (becomes_call session call)) h

/-- No change of the tree waits to be saved when a call has been answered. -/
theorem changed_call {session : Session σ} (h : session.files.changed = false) (call : Call) :
    (session.call call).2.files.changed = false := by
  cases call with
  | execute now line =>
    rw [call_execute_snd]
    by_cases hblank : Text.isAllBlank line
    · rwa [execute_of_blank now session hblank]
    · obtain ⟨store, notices, hpersist⟩ :=
        ((session.record line).dispatch now line).2.persist_eq session.login
      rw [execute_of_not_blank now session hblank, hpersist]
      rfl
  | saveFile path content =>
    rw [call_saveFile_snd]
    cases hedit : session.files.edit (Path.resolve session.login.directory path)
        (.write content .overwrite) with
    | error fault => rwa [saveFile_of_error session hedit]
    | ok files =>
      obtain ⟨store, notices, hpersist⟩ := Context.persistTree_eq { session.toContext with files }
      rw [saveFile_of_ok session hedit, hpersist]
      rfl
  | complete | takeRequest => exact h

end Session

end PocketShell
