import PocketShell.Proofs.Session.Change

/-!
# The record of a session

The user and the directory stand among the variables too, and `export` and `unset` write these by
name. `Login.Regular` says that neither copy goes astray and that no variable of the beginning is
lost; every step of a command keeps that. No step writes the history: it has the lines that were
executed and are not blank, whatever came of them. Main statement: `Session.regular_after`.
-/

namespace PocketShell

/-! ## Variables -/

namespace Environment

/-- The text begins with an ASCII letter or an underscore, and goes on with these and with ASCII
digits. -/
def IsVariable (name : String) : Prop :=
  ∃ first others, name.toList = first :: others ∧ (first.isAlpha ∨ first = '_') ∧
    ∀ c ∈ others, c.isAlpha ∨ c.isDigit ∨ c = '_'

/-- The names that are taken are those of variables. -/
theorem isName_iff {name : String} : isName name ↔ IsVariable name := by
  have hcons (first : Char) (others : List Char) : isNameList (first :: others) ↔
      (first.isAlpha ∨ first = '_') ∧ ∀ c ∈ others, c.isAlpha ∨ c.isDigit ∨ c = '_' := by
    simp [isNameList, isNameStart, isNameRest, Char.isAlphanum, or_assoc]
  unfold isName IsVariable
  constructor
  · intro h
    cases hname : name.toList with
    | nil =>
      rw [hname] at h
      cases h
    | cons first others => exact ⟨first, others, rfl, (hcons first others).mp (hname ▸ h)⟩
  · rintro ⟨first, others, hname, h⟩
    rw [hname]
    exact (hcons first others).mpr h

/-- No variable is there twice, the five with which every login starts come first, and all names can
name a variable. -/
structure Regular (entries : Named String) : Prop where
  distinct : entries.names.Nodup
  first : ["USER", "HOME", "PWD", "PATH", "SHELL"] <+: entries.names
  named : ∀ name ∈ entries.names, IsVariable name

variable {entries : Named String}

/-- A variable that is assigned stays where it is, and a new one comes last. -/
theorem Regular.put (h : Regular entries) {name : String} (hname : isName name)
    (value : String) : Regular (entries.put name value) := by
  have hnames := Named.names_put entries name value
  split at hnames
  · exact ⟨by rw [hnames]; exact h.distinct, by rw [hnames]; exact h.first,
      by rw [hnames]; exact h.named⟩
  · next hnew =>
    refine ⟨?_, ?_, ?_⟩
    · rw [hnames, List.nodup_append]
      refine ⟨h.distinct, List.pairwise_singleton _ _, fun other hother last hlast => ?_⟩
      rw [List.mem_singleton.mp hlast]
      rintro rfl
      exact hnew hother
    · rw [hnames]
      exact h.first.trans (List.prefix_append _ _)
    · rw [hnames]
      intro other hother
      rcases List.mem_append.mp hother with hother | hother
      · exact h.named other hother
      · rw [List.mem_singleton.mp hother]
        exact isName_iff.mp hname

/-- Taking out a variable that is not one of the beginning leaves these where they are. -/
theorem Regular.erase (h : Regular entries) {name : String} (hname : name ∉ required) :
    Regular (entries.erase name) := by
  obtain ⟨others, hothers⟩ : required <+: entries.names := h.first
  have hnames := Named.names_erase entries name
  refine ⟨?_, ?_, ?_⟩
  · rw [hnames]
    exact h.distinct.erase name
  · rw [hnames, ← hothers, List.erase_append_right _ hname]
    exact List.prefix_append _ _
  · rw [hnames]
    exact fun other hother => h.named other (List.mem_of_mem_erase hother)

end Environment

/-! ## Logins -/

namespace Login

/-- The variables are regular, and `USER` and `PWD` have the user and the directory. -/
structure Regular (login : Login) : Prop where
  environment : Environment.Regular login.environment
  user : login.environment.get? "USER" = some login.user
  directory : login.environment.get? "PWD" = some login.directory

/-- The variables with which a login starts are the five that are required, with the user and the
directory among them. -/
theorem regular_start (user home directory : String) : (start user home directory).Regular := by
  have hnames : (start user home directory).environment.names = Environment.required := rfl
  have hnamed : ∀ name ∈ Environment.required, Environment.isName name := by decide
  refine ⟨⟨?_, ⟨[], rfl⟩, ?_⟩, rfl, rfl⟩
  · rw [hnames]
    decide
  · rw [hnames]
    exact fun name hname => Environment.isName_iff.mp (hnamed name hname)

variable {login : Login}

/-- Entering a directory sets `PWD` to it, in its place among the variables. -/
theorem Regular.enter (h : login.Regular) (directory : String) :
    (login.enter directory).Regular where
  environment := h.environment.put (by decide) directory
  user := by simpa [Login.enter, Named.get?_put] using h.user
  directory := by simp [Login.enter, Named.get?_put]

/-- Becoming a user sets `USER` to it, in its place among the variables. -/
theorem Regular.become (h : login.Regular) (user : String) : (login.become user).Regular where
  environment := h.environment.put (by decide) user
  user := by simp [Login.become, Named.get?_put]
  directory := by simpa [Login.become, Named.get?_put] using h.directory

/-- Defining a variable leaves the login regular: the name is valid, and neither `USER` nor `PWD`.
-/
theorem Regular.define (h : login.Regular) {name : String} (hname : Environment.isName name)
    (hwritable : name ∉ Environment.readOnly) (value : String) :
    (login.define name value).Regular := by
  obtain ⟨huser, hdirectory⟩ : name ≠ "USER" ∧ name ≠ "PWD" := by
    simpa [Environment.readOnly] using hwritable
  exact ⟨h.environment.put hname value,
    by simpa [Login.define, Named.get?_put, huser] using h.user,
    by simpa [Login.define, Named.get?_put, hdirectory] using h.directory⟩

/-- Undefining a variable leaves the login regular: it is none of the five. -/
theorem Regular.undefine (h : login.Regular) {name : String}
    (hfree : name ∉ Environment.required) : (login.undefine name).Regular := by
  obtain ⟨huser, -, hdirectory, -⟩ :
      name ≠ "USER" ∧ name ≠ "HOME" ∧ name ≠ "PWD" ∧ name ≠ "PATH" ∧ name ≠ "SHELL" := by
    simpa [Environment.required] using hfree
  exact ⟨h.environment.erase hfree, (Named.get?_erase_of_ne _ huser).trans h.user,
    (Named.get?_erase_of_ne _ hdirectory).trans h.directory⟩

end Login

/-! ## Sessions -/

namespace Context

variable {σ : Type}

/-- A step leaves the login regular: what it defines has a valid name, and what it undefines is not
required. -/
theorem regular_act {before after : Context σ} (h : Act before after)
    (hbefore : before.login.Regular) : after.login.Regular := by
  cases h with
  | edit | ask | report => exact hbefore
  | enter => exact hbefore.enter _
  | become => exact hbefore.become _
  | define hname hwritable => exact hbefore.define hname hwritable _
  | undefine _ hfree => exact hbefore.undefine hfree

/-- A change leaves the login regular: it is a step, or does not touch the variables. -/
theorem regular_change {before after : Context σ} (h : Change before after)
    (hbefore : before.login.Regular) : after.login.Regular := by
  cases h with
  | act hact => exact regular_act hact hbefore
  | record | handOver | settle => exact ⟨hbefore.environment, hbefore.user, hbefore.directory⟩

/-- A step leaves the history alone. -/
theorem history_act {before after : Context σ} (h : Act before after) :
    after.login.history = before.login.history := by
  cases h <;> rfl

/-- No command writes the history. -/
theorem history_dispatch [Storage σ] (context : Context σ) (now : Calendar.Moment)
    (input : String) : (context.dispatch now input).2.login.history = context.login.history := by
  obtain ⟨store, notices, -, hreaches⟩ := context.reaches_dispatch now input
  exact keeps_of_steps (·.login.history = context.login.history)
    (fun _ _ hact hbefore => (history_act hact).trans hbefore) hreaches rfl

end Context

namespace Session

variable {σ : Type} [Storage σ]

/-- The line that is to be executed, if the call is for that. -/
def Call.line? : Call → Option String
  | .execute _ line => some line
  | _ => none

/-- The lines that some calls have executed, without the blank ones. -/
def executedLines (calls : List Call) : List String :=
  (calls.filterMap Call.line?).filter fun line => ¬ Text.isAllBlank line

/-- Calls one after the other execute their lines one after the other. -/
theorem executedLines_append (calls later : List Call) :
    executedLines (calls ++ later) = executedLines calls ++ executedLines later := by
  rw [executedLines, List.filterMap_append, List.filter_append]
  rfl

/-- A line is recorded as it was typed, at the end, unless it is blank; its command leaves the
history alone. -/
theorem history_execute (now : Calendar.Moment) (session : Session σ) (input : String) :
    (session.execute now input).2.login.history =
      session.login.history ++ if Text.isAllBlank input then [] else [input] := by
  by_cases hblank : Text.isAllBlank input
  · rw [execute_of_blank now session hblank, if_pos hblank, List.append_nil]
  · rw [execute_of_not_blank now session hblank, if_neg hblank]
    obtain ⟨store, notices, hpersist⟩ :=
      ((session.toContext.record input).dispatch now input).2.persist_eq session.login
    rw [hpersist]
    exact (session.toContext.record input).history_dispatch now input

/-- A save of the editor is not recorded. -/
theorem history_saveFile (session : Session σ) (path content : String) :
    (session.saveFile path content).2.login.history = session.login.history := by
  cases hedit : session.files.edit (Path.resolve session.login.directory path)
      (.write content .overwrite) with
  | error fault => rw [saveFile_of_error session hedit]
  | ok files =>
    rw [saveFile_of_ok session hedit]
    obtain ⟨store, notices, hpersist⟩ := Context.persistTree_eq { session.toContext with files }
    rw [hpersist]

/-- A call records the line that it executes. -/
theorem history_call (session : Session σ) (call : Call) :
    (session.call call).2.login.history = session.login.history ++ executedLines [call] := by
  cases call with
  | execute now line =>
    rw [call_execute_snd, history_execute]
    by_cases hblank : Text.isAllBlank line <;> simp [executedLines, Call.line?, hblank]
  | saveFile path content =>
    rw [call_saveFile_snd, history_saveFile]
    exact (List.append_nil _).symm
  | complete | takeRequest => exact (List.append_nil _).symm

/-- The history is the one at the beginning and all the lines executed since, in their order. -/
theorem history_after (session : Session σ) (calls : List Call) :
    (session.after calls).login.history = session.login.history ++ executedLines calls := by
  induction calls generalizing session with
  | nil => exact (List.append_nil _).symm
  | cons call calls ih =>
    rw [after, ih, history_call, List.append_assoc, ← executedLines_append, List.singleton_append]

/-- **The record of a session.** After any calls, on any store and with any settings: no variable is
there twice, `USER`, `HOME`, `PWD`, `PATH` and `SHELL` come first, in this order, and all names can
name a variable; `USER` has the current user and `PWD` the current directory; and the history has
the executed lines that are not blank, as they were typed, in order and whatever came of them. -/
theorem regular_after (settings : Settings) (store : σ) (calls : List Call) :
    let login := ((start settings store).after calls).login
    login.Regular ∧ login.history = executedLines calls := by
  obtain ⟨changed, after, notices, hstart⟩ := exists_start_eq settings store
  have hregular : (start settings store).login.Regular := by
    rw [hstart]
    exact Login.regular_start _ _ _
  have hhistory : (start settings store).login.history = [] := by rw [hstart]; rfl
  refine ⟨after_keeps (·.login.Regular) (fun _ _ => Context.regular_change) hregular calls, ?_⟩
  rw [history_after, hhistory, List.nil_append]

end Session

end PocketShell
