import Mathlib.Logic.Relation
import PocketShell.Proofs.Path.Normal
import PocketShell.Session.Dispatch

/-!
# What a line can do to a context

Whatever a line is, what it does is a sequence of a few kinds of steps. `Context.Act` lists them,
with what has been checked before each; `Context.Reaches` puts them in sequence. The store is apart:
only a confirmed `reset` touches it. Main statement: `Context.reaches_dispatch`. What every step
keeps, every line keeps (`Context.keeps_of_steps`).
-/

namespace PocketShell

/-- The command that a line asks for, if it asks for one. -/
def Line.command? (input : String) : Option Command :=
  match Line.parse input with
  | .ok (some line) => Command.parse? line.name line.args
  | _ => none

namespace Context

variable {σ : Type}

/-- A step of a command. -/
inductive Act : Context σ → Context σ → Prop
  /-- A place is edited, or the edit is refused. -/
  | edit (context : Context σ) (place : String) (edit : Edit) :
      Act context { context with files := (context.files.attempt place edit).2 }
  /-- A directory that is there becomes the current one, under its normal path. -/
  | enter {context : Context σ} {path : String} : context.files.isDirectory (Path.normalize path) →
      Act context { context with login := context.login.enter (Path.normalize path) }
  | become {context : Context σ} {user : String} : User.isName user →
      Act context { context with login := context.login.become user }
  | define {context : Context σ} {name value : String} : Environment.isName name →
      name ∉ Environment.readOnly →
      Act context { context with login := context.login.define name value }
  | undefine {context : Context σ} {name : String} : Environment.isName name →
      name ∉ Environment.required →
      Act context { context with login := context.login.undefine name }
  /-- A file that can be written is asked for. -/
  | ask {context : Context σ} {path content : String} :
      Command.contentToEdit context.files path = .ok content →
      Act context { context with request := some ⟨path, content⟩ }
  | report (context : Context σ) (notice : Notice) : Act context (context.report notice)

/-- One context comes of another by steps. -/
abbrev Reaches : Context σ → Context σ → Prop :=
  Relation.ReflTransGen Act

/-- A context reaches itself, by no step. -/
theorem Reaches.refl (context : Context σ) : Reaches context context :=
  Relation.ReflTransGen.refl

/-- One step reaches what it leads to. -/
theorem Act.reaches {before after : Context σ} (h : Act before after) : Reaches before after :=
  Relation.ReflTransGen.single h

/-- What every step keeps is kept. -/
theorem keeps_of_steps {step : Context σ → Context σ → Prop} (p : Context σ → Prop)
    (hstep : ∀ before after : Context σ, step before after → p before → p after)
    {before after : Context σ} (h : Relation.ReflTransGen step before after)
    (hbefore : p before) : p after := by
  induction h with
  | refl => exact hbefore
  | tail _ hlast ih => exact hstep _ _ hlast ih

/-- An attempted edit is a step, also where it is refused: the attempt then leaves the tree as it
is. -/
theorem reaches_edit (context : Context σ) (path : String) (edit : Edit) :
    Reaches context (context.edit path edit).2 := by
  rw [edit_snd]
  exact (Act.edit context _ edit).reaches

end Context

namespace Environment

/-- An assignment leaves the login as it is, or defines a variable with a valid name that is not
read-only. -/
theorem assign_snd (login : Login) (operand : String) :
    (assign login operand).2 = login ∨ ∃ name value, isName name ∧ name ∉ readOnly ∧
      (assign login operand).2 = login.define name value := by
  unfold assign
  extract_lets name
  split
  · exact .inl rfl
  · next hname =>
    split
    · exact .inl rfl
    · next value _ =>
      split
      · exact .inl rfl
      · next hwritable => exact .inr ⟨name, _, by simpa using hname, hwritable, rfl⟩

/-- A discarded name leaves the login as it is, or undefines a variable with a valid name that the
shell does not need. -/
theorem discard_snd (login : Login) (name : String) :
    (discard login name).2 = login ∨
      (isName name ∧ name ∉ required ∧ (discard login name).2 = login.undefine name) := by
  unfold discard
  split
  · exact .inl rfl
  · next hname =>
    split
    · exact .inl rfl
    · next hrequired => exact .inr ⟨by simpa using hname, hrequired, rfl⟩

end Environment

namespace Command

open Context

variable {σ : Type}

/-! ## The commands one by one -/

/-- What holds between a context and the one after an operand holds of all operands together. -/
theorem onOperands_induction {R : Context σ → Context σ → Prop}
    (hrefl : ∀ context, R context context)
    (htrans : ∀ {first second third : Context σ}, R first second → R second third → R first third)
    {take : Context σ → String → Option String × Context σ}
    (htake : ∀ context operand, R context (take context operand).2) (operands : List String)
    (context : Context σ) : R context (onOperands take operands context).2 := by
  change R context (eachOperand take operands context).2
  induction operands generalizing context with
  | nil => exact hrefl context
  | cons operand operands ih => exact htrans (htake context operand) (ih _)

/-- Operands are taken by steps if each of them is. -/
theorem reaches_onOperands {take : Context σ → String → Option String × Context σ}
    (htake : ∀ context operand, Reaches context (take context operand).2) (operands : List String)
    (context : Context σ) : Reaches context (onOperands take operands context).2 :=
  onOperands_induction Reaches.refl .trans htake operands context

/-- `mkdir` takes an operand by steps. -/
theorem reaches_makeDirectory (context : Context σ) (path : String) :
    Reaches context (makeDirectory context path).2 :=
  reaches_edit context path (.create .directory)

/-- `touch` takes an operand by steps. -/
theorem reaches_makeFile (context : Context σ) (path : String) :
    Reaches context (makeFile context path).2 :=
  reaches_edit context path (.create .file)

/-- `rm` takes an operand by steps. -/
theorem reaches_removeFile (context : Context σ) (path : String) :
    Reaches context (removeFile context path).2 :=
  reaches_edit context path .remove

/-- `export` takes an operand by a `define` step, or by none. -/
theorem reaches_assignVariable (context : Context σ) (operand : String) :
    Reaches context (assignVariable context operand).2 := by
  rcases Environment.assign_snd context.login operand with h | ⟨_, _, hname, hwritable, h⟩
  · simp only [assignVariable, h]
    exact .refl context
  · simp only [assignVariable, h]
    exact (Act.define hname hwritable).reaches

/-- `unset` takes an operand by an `undefine` step, or by none. -/
theorem reaches_discardVariable (context : Context σ) (operand : String) :
    Reaches context (discardVariable context operand).2 := by
  rcases Environment.discard_snd context.login operand with h | ⟨hname, hfree, h⟩
  · simp only [discardVariable, h]
    exact .refl context
  · simp only [discardVariable, h]
    exact (Act.undefine hname hfree).reaches

/-- Entering a normalized path is an `enter` step if a directory is there, and no step otherwise. -/
theorem reaches_enter (context : Context σ) (shown path : String) :
    Reaches context (enter context shown (Path.normalize path)).2 := by
  unfold enter
  split
  · next entries h =>
    have hpath : context.files.isDirectory (Path.normalize path) := by
      simp [FileSystem.isDirectory, h, Node.isDirectory]
    exact (Act.enter hpath).reaches
  · exact .refl context
  · exact .refl context

/-- `cd` goes by steps, with an operand and without: either way the path it enters is normalized. -/
theorem reaches_changeDirectory (context : Context σ) (path : Option String) :
    Reaches context (changeDirectory context path).2 := by
  cases path with
  | none => rw [changeDirectory]; exact reaches_enter context _ _
  | some path =>
    obtain ⟨full, hfull⟩ := Path.exists_resolve_eq_normalize context.login.directory
      (Path.expandHome context.login.home path)
    rw [changeDirectory, Context.resolve, hfull]
    exact reaches_enter context _ _

/-- `su` goes by a `report` step and a `become` step, or by none. -/
theorem reaches_switchUser (context : Context σ) (user : Option String) :
    Reaches context (switchUser context user).2 := by
  unfold switchUser
  extract_lets user
  split
  · next huser => exact (Act.report context _).reaches.tail (Act.become huser)
  · exact .refl context

/-- `vi` goes by an `ask` step, whose file was found to be writable, or by none. -/
theorem reaches_openEditor (context : Context σ) (operand : Option String) :
    Reaches context (openEditor context operand).2 := by
  cases operand with
  | none => exact .refl context
  | some operand =>
    rw [openEditor]
    split
    · next content hcontent => exact (Act.ask hcontent).reaches
    · exact .refl context

/-- Forgetting what is stored changes the store and the notices of a context, and nothing else. -/
theorem forget_snd [Storage σ] (context : Context σ) :
    ∃ store notices, (forget context).2 = { context with store, notices } := by
  unfold forget
  split <;> exact ⟨_, _, rfl⟩

/-- Every command but a confirmed `reset` goes by steps. -/
theorem reaches_run_of_ne [Storage σ] (now : Calendar.Moment) (context : Context σ)
    {command : Command} (h : command ≠ .reset true) :
    Reaches context (run now context command).2 := by
  cases command with
  | help | ls | pwd | cat | echo | clear | whoami | date | uname | env | history | ps =>
    rw [run, done_snd]
  | tree => rw [run]
  | cd path => rw [run, done_snd]; exact reaches_changeDirectory context path
  | «export» args =>
    cases args with
    | nil => rw [run, done_snd]
    | cons arg args =>
      rw [run, done_snd]
      exact reaches_onOperands reaches_assignVariable (arg :: args) context
  | unset args =>
    rw [run, done_snd]
    exact reaches_onOperands reaches_discardVariable args context
  | mkdir paths =>
    cases paths with
    | nil => rw [run, done_snd]
    | cons path paths =>
      rw [run, done_snd]
      exact reaches_onOperands reaches_makeDirectory (path :: paths) context
  | touch paths =>
    cases paths with
    | nil => rw [run, done_snd]
    | cons path paths =>
      rw [run, done_snd]
      exact reaches_onOperands reaches_makeFile (path :: paths) context
  | rm paths =>
    cases paths with
    | nil => rw [run, done_snd]
    | cons path paths =>
      rw [run, done_snd]
      exact reaches_onOperands reaches_removeFile (path :: paths) context
  | vi path => rw [run, done_snd]; exact reaches_openEditor context path
  | su user => rw [run, done_snd]; exact reaches_switchUser context user
  | reset confirmed =>
    cases confirmed with
    | false => rw [run, done_snd]
    | true => exact absurd rfl h

/-- What a command does, it does by steps, once a confirmed `reset` has dealt with the store. -/
theorem reaches_run [Storage σ] (now : Calendar.Moment) (context : Context σ) (command : Command) :
    ∃ store notices, (command ≠ .reset true → store = context.store) ∧
      Reaches { context with store, notices } (run now context command).2 := by
  by_cases hreset : command = .reset true
  · subst hreset
    obtain ⟨store, notices, h⟩ := forget_snd context
    refine ⟨store, notices, fun hne => absurd rfl hne, ?_⟩
    rw [run, h]
  · exact ⟨context.store, context.notices, fun _ => rfl, reaches_run_of_ne now context hreset⟩

end Command

namespace Context

variable {σ : Type}

/-! ## Lines -/

/-- A redirected output is written by steps. -/
theorem reaches_divert (context : Context σ) (redirect : Redirect) (outcome : Outcome) :
    Reaches context (context.divert redirect outcome).2 := by
  have h := reaches_edit context redirect.target (.write (outcome.text?.getD "") redirect.mode)
  unfold divert
  extract_lets content
  split <;> next hedit => rwa [hedit] at h

/-- **What a line does, it does by steps**, once a confirmed `reset` has dealt with the store. -/
theorem reaches_dispatch [Storage σ] (context : Context σ) (now : Calendar.Moment)
    (input : String) :
    ∃ store notices, (Line.command? input ≠ some (.reset true) → store = context.store) ∧
      Reaches { context with store, notices } (context.dispatch now input).2 := by
  have still : ∃ store notices, (Line.command? input ≠ some (.reset true) → store = context.store) ∧
      Reaches { context with store, notices } context :=
    ⟨context.store, context.notices, fun _ => rfl, .refl context⟩
  unfold dispatch
  split
  · exact still
  · next line hline =>
    unfold answer
    split
    · exact still
    · next command hcommand =>
      have hinput : Line.command? input = some command := by
        rw [Line.command?, hline]
        exact hcommand
      obtain ⟨store, notices, hstore, hrun⟩ := Command.reaches_run now context command
      refine ⟨store, notices, fun hne => hstore fun h => hne (h ▸ hinput), ?_⟩
      split
      · next h => rw [h] at hrun; exact hrun.tail (.report _ _)
      · next h =>
        rw [h] at hrun
        split
        · exact hrun
        · exact hrun.trans (reaches_divert _ _ _)
  · exact still

end Context

end PocketShell
