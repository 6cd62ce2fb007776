import PocketShell.Proofs.Command.Act

/-!
# What a command leaves alone

What commands work on has parts, and a command has one part at most that it may change
(`Command.part?`). `Context.ChangesOnly` says that all others are as before, and so is the history.
Main statements: `Command.changesOnly_run` for all commands, and `Command.run_of_refused`, a command
that goes elsewhere or opens the editor changes nothing at all when it shows why it cannot.
-/

namespace PocketShell

/-- A part of what commands work on. -/
inductive Part where
  /-- The tree, with its mark of change. -/
  | tree
  /-- The current directory, with `PWD`. -/
  | directory
  /-- The current user, with `USER`. -/
  | user
  /-- The variables other than these two. -/
  | environment
  /-- The request for the editor. -/
  | request
  /-- What is stored. -/
  | store
  deriving DecidableEq, Repr

/-- The part that a command may change, if there is one. -/
def Command.part? : Command → Option Part
  | mkdir _ | touch _ | rm _ => some .tree
  | cd _ => some .directory
  | su _ => some .user
  | .export _ | unset _ => some .environment
  | vi _ => some .request
  | reset true => some .store
  | _ => none

/-- The variables that can be assigned, in the order of their definition. -/
def Login.assignable (login : Login) : Named String :=
  login.environment.filter (·.1 ∉ Environment.readOnly)

/-- The part of two contexts is the same. -/
def Part.Same {σ : Type} (before after : Context σ) : Part → Prop
  | tree => after.files = before.files
  | directory =>
    after.login.directory = before.login.directory ∧
      after.login.environment.get? "PWD" = before.login.environment.get? "PWD"
  | user =>
    after.login.user = before.login.user ∧
      after.login.environment.get? "USER" = before.login.environment.get? "USER"
  | environment => after.login.assignable = before.login.assignable
  | request => after.request = before.request
  | store => after.store = before.store

/-- A variable that is put leaves a selection without it as it is. -/
theorem Named.filter_put {α : Type} {p : String → Bool} {name : String} (h : p name = false)
    (entries : Named α) (value : α) :
    (entries.put name value).filter (p ·.1) = List.filter (p ·.1) entries := by
  induction entries with
  | nil => simp [put, h]
  | cons entry rest ih =>
    obtain ⟨other, old⟩ := entry
    rw [put]
    split
    · next hname => simp [hname, h]
    · rw [List.filter_cons, List.filter_cons, ih]

namespace Context

variable {σ : Type}

/-- Of two contexts one part may differ at most; neither the history nor the keys do. -/
structure ChangesOnly (part? : Option Part) (before after : Context σ) : Prop where
  same : ∀ part : Part, part? ≠ some part → part.Same before after
  history : after.login.history = before.login.history
  keys : after.keys = before.keys

variable {part? : Option Part} {context : Context σ}

/-- A context that stays as it is changes in one part at most, whichever it is. -/
theorem ChangesOnly.refl (context : Context σ) : ChangesOnly part? context context := by
  refine ⟨fun part _ => ?_, rfl, rfl⟩
  cases part with
  | directory | user => exact ⟨rfl, rfl⟩
  | tree | environment | request | store => rfl

/-- Two changes of the same part one after the other are a change of that part. -/
theorem ChangesOnly.trans {first second third : Context σ} (h : ChangesOnly part? first second)
    (h' : ChangesOnly part? second third) : ChangesOnly part? first third := by
  refine ⟨fun part hpart => ?_, h'.history.trans h.history, h'.keys.trans h.keys⟩
  have hfirst := h.same part hpart
  have hsecond := h'.same part hpart
  cases part with
  | directory | user => exact ⟨hsecond.1.trans hfirst.1, hsecond.2.trans hfirst.2⟩
  | tree | environment | request | store => exact Eq.trans hsecond hfirst

/-! ## One part after the other -/

/-- An edit changes the tree alone, whether it is made or refused. -/
theorem changesOnly_edit (context : Context σ) (path : String) (edit : Edit) :
    ChangesOnly (some .tree) context (context.edit path edit).2 := by
  rw [edit_snd]
  refine ⟨fun part hpart => ?_, rfl, rfl⟩
  cases part with
  | tree => exact absurd rfl hpart
  | directory | user => exact ⟨rfl, rfl⟩
  | environment | request | store => rfl

/-- Entering a directory changes the current path and `PWD`: `PWD` is read-only, so no variable that
can be assigned is another one. -/
theorem changesOnly_enter (context : Context σ) (path : String) :
    ChangesOnly (some .directory) context { context with login := context.login.enter path } := by
  refine ⟨fun part hpart => ?_, rfl, rfl⟩
  cases part with
  | directory => exact absurd rfl hpart
  | user => exact ⟨rfl, by simp [Login.enter, Named.get?_put]⟩
  | environment => exact Named.filter_put (p := (· ∉ Environment.readOnly)) (by decide) _ _
  | tree | request | store => rfl

/-- Becoming a user changes the current user and `USER`, and what the session is told of it. -/
theorem changesOnly_become (context : Context σ) (user : String) (notices : List Notice) :
    ChangesOnly (some .user) context
      { context with login := context.login.become user, notices } := by
  refine ⟨fun part hpart => ?_, rfl, rfl⟩
  cases part with
  | user => exact absurd rfl hpart
  | directory => exact ⟨rfl, by simp [Login.become, Named.get?_put]⟩
  | environment => exact Named.filter_put (p := (· ∉ Environment.readOnly)) (by decide) _ _
  | tree | request | store => rfl

/-- A variable that is not read-only is neither `PWD` nor `USER`, so defining it changes the
environment alone. -/
theorem changesOnly_define {name : String} (hwritable : name ∉ Environment.readOnly)
    (value : String) :
    ChangesOnly (some .environment) context
      { context with login := context.login.define name value } := by
  obtain ⟨huser, hdirectory⟩ : name ≠ "USER" ∧ name ≠ "PWD" := by
    simpa [Environment.readOnly] using hwritable
  refine ⟨fun part hpart => ?_, rfl, rfl⟩
  cases part with
  | environment => exact absurd rfl hpart
  | directory => exact ⟨rfl, by simp [Login.define, Named.get?_put, hdirectory]⟩
  | user => exact ⟨rfl, by simp [Login.define, Named.get?_put, huser]⟩
  | tree | request | store => rfl

/-- A variable the shell does not need is neither `PWD` nor `USER`, so undefining it changes the
environment alone. -/
theorem changesOnly_undefine {name : String} (hfree : name ∉ Environment.required) :
    ChangesOnly (some .environment) context
      { context with login := context.login.undefine name } := by
  obtain ⟨huser, -, hdirectory, -⟩ :
      name ≠ "USER" ∧ name ≠ "HOME" ∧ name ≠ "PWD" ∧ name ≠ "PATH" ∧ name ≠ "SHELL" := by
    simpa [Environment.required] using hfree
  refine ⟨fun part hpart => ?_, rfl, rfl⟩
  cases part with
  | environment => exact absurd rfl hpart
  | directory => exact ⟨rfl, Named.get?_erase_of_ne _ hdirectory⟩
  | user => exact ⟨rfl, Named.get?_erase_of_ne _ huser⟩
  | tree | request | store => rfl

/-- Asking for the editor changes the request alone. -/
theorem changesOnly_ask (context : Context σ) (request : EditRequest) :
    ChangesOnly (some .request) context { context with request := some request } := by
  refine ⟨fun part hpart => ?_, rfl, rfl⟩
  cases part with
  | request => exact absurd rfl hpart
  | directory | user => exact ⟨rfl, rfl⟩
  | tree | environment | store => rfl

/-- Another store, with other notices, is a change of the store alone. -/
theorem changesOnly_settle (context : Context σ) (store : σ) (notices : List Notice) :
    ChangesOnly (some .store) context { context with store, notices } := by
  refine ⟨fun part hpart => ?_, rfl, rfl⟩
  cases part with
  | store => exact absurd rfl hpart
  | directory | user => exact ⟨rfl, rfl⟩
  | tree | environment | request => rfl

end Context

namespace Command

open Context

variable {σ : Type}

/-! ## The commands one by one -/

/-- If each operand changes a part at most, then so do all of them one after another. -/
theorem changesOnly_onOperands {part? : Option Part}
    {take : Context σ → String → Option String × Context σ}
    (htake : ∀ context operand, ChangesOnly part? context (take context operand).2)
    (operands : List String) (context : Context σ) :
    ChangesOnly part? context (onOperands take operands context).2 :=
  onOperands_induction ChangesOnly.refl .trans htake operands context

/-- An operand of `mkdir` changes the tree alone. -/
theorem changesOnly_makeDirectory (context : Context σ) (path : String) :
    ChangesOnly (some .tree) context (makeDirectory context path).2 :=
  changesOnly_edit context path (.create .directory)

/-- An operand of `touch` changes the tree alone. -/
theorem changesOnly_makeFile (context : Context σ) (path : String) :
    ChangesOnly (some .tree) context (makeFile context path).2 :=
  changesOnly_edit context path (.create .file)

/-- An operand of `rm` changes the tree alone. -/
theorem changesOnly_removeFile (context : Context σ) (path : String) :
    ChangesOnly (some .tree) context (removeFile context path).2 :=
  changesOnly_edit context path .remove

/-- An operand of `export` changes the environment alone. -/
theorem changesOnly_assignVariable (context : Context σ) (operand : String) :
    ChangesOnly (some .environment) context (assignVariable context operand).2 := by
  rcases Environment.assign_snd context.login operand with h | ⟨_, _, -, hwritable, h⟩
  · simp only [assignVariable, h]
    exact .refl context
  · simp only [assignVariable, h]
    exact changesOnly_define hwritable _

/-- An operand of `unset` changes the environment alone. -/
theorem changesOnly_discardVariable (context : Context σ) (operand : String) :
    ChangesOnly (some .environment) context (discardVariable context operand).2 := by
  rcases Environment.discard_snd context.login operand with h | ⟨-, hfree, h⟩
  · simp only [discardVariable, h]
    exact .refl context
  · simp only [discardVariable, h]
    exact changesOnly_undefine hfree

/-- `cd` changes the current directory alone. -/
theorem changesOnly_changeDirectory (context : Context σ) (path : Option String) :
    ChangesOnly (some .directory) context (changeDirectory context path).2 := by
  have henter (shown place : String) :
      ChangesOnly (some .directory) context (enter context shown place).2 := by
    unfold enter
    split
    · exact changesOnly_enter context place
    · exact .refl context
    · exact .refl context
  cases path with
  | none => rw [changeDirectory]; exact henter _ _
  | some path => rw [changeDirectory]; exact henter _ _

/-- `su` changes the current user alone. -/
theorem changesOnly_switchUser (context : Context σ) (user : Option String) :
    ChangesOnly (some .user) context (switchUser context user).2 := by
  unfold switchUser
  extract_lets user
  split
  · exact changesOnly_become context user _
  · exact .refl context

/-- `vi` changes the request alone. -/
theorem changesOnly_openEditor (context : Context σ) (operand : Option String) :
    ChangesOnly (some .request) context (openEditor context operand).2 := by
  cases operand with
  | none => exact .refl context
  | some operand =>
    rw [openEditor]
    split
    · exact changesOnly_ask context _
    · exact .refl context

section
variable [Storage σ] (now : Calendar.Moment) (context : Context σ)

/-- A command without a part of its own changes nothing. -/
theorem run_of_part?_eq_none {command : Command} (h : command.part? = none) :
    (run now context command).2 = context := by
  cases command with
  | help | ls | pwd | cat | echo | clear | whoami | date | uname | env | history | tree | ps => rfl
  | reset confirmed =>
    cases confirmed with
    | false => rfl
    | true => cases h
  | cd | «export» | unset | mkdir | touch | rm | vi | su => cases h

/-- **A command changes its own part only.** -/
theorem changesOnly_run (command : Command) :
    ChangesOnly command.part? context (run now context command).2 := by
  cases command with
  | help | ls | pwd | cat | echo | clear | whoami | date | uname | env | history | tree | ps =>
    exact .refl context
  | cd path => rw [run, done_snd]; exact changesOnly_changeDirectory context path
  | «export» args =>
    cases args with
    | nil => exact .refl context
    | cons arg args =>
      rw [run, done_snd]
      exact changesOnly_onOperands changesOnly_assignVariable _ context
  | unset args =>
    rw [run, done_snd]
    exact changesOnly_onOperands changesOnly_discardVariable args context
  | mkdir paths =>
    cases paths with
    | nil => exact .refl context
    | cons path paths =>
      rw [run, done_snd]
      exact changesOnly_onOperands changesOnly_makeDirectory _ context
  | touch paths =>
    cases paths with
    | nil => exact .refl context
    | cons path paths =>
      rw [run, done_snd]
      exact changesOnly_onOperands changesOnly_makeFile _ context
  | rm paths =>
    cases paths with
    | nil => exact .refl context
    | cons path paths =>
      rw [run, done_snd]
      exact changesOnly_onOperands changesOnly_removeFile _ context
  | vi path => rw [run, done_snd]; exact changesOnly_openEditor context path
  | su user => rw [run, done_snd]; exact changesOnly_switchUser context user
  | reset confirmed =>
    cases confirmed with
    | false => exact .refl context
    | true =>
      obtain ⟨store, notices, hforget⟩ := forget_snd context
      rw [run, hforget]
      exact changesOnly_settle context store notices

end

/-! ## Refusals -/

section
variable {context : Context σ} {text : String}

/-- A `cd` that shows a text has failed, and leaves everything as it was. -/
theorem changeDirectory_of_text {path : Option String} (htext : text ≠ "")
    (h : (changeDirectory context path).1 = .text text) :
    (changeDirectory context path).2 = context := by
  have henter (shown place : String) (h : (enter context shown place).1 = .text text) :
      (enter context shown place).2 = context := by
    unfold enter at h ⊢
    split at h
    · cases h
      exact absurd rfl htext
    · rfl
    · rfl
  cases path with
  | none =>
    rw [changeDirectory] at h ⊢
    exact henter _ _ h
  | some path =>
    rw [changeDirectory] at h ⊢
    exact henter _ _ h

/-- A `su` that shows a text has failed, and leaves everything as it was. -/
theorem switchUser_of_text {user : Option String} (h : (switchUser context user).1 = .text text) :
    (switchUser context user).2 = context := by
  unfold switchUser at h ⊢
  extract_lets at h ⊢
  split at h
  · cases h
  · next hname => rw [if_neg hname]

/-- A `vi` that shows a text has failed, and leaves everything as it was. -/
theorem openEditor_of_text {operand : Option String}
    (h : (openEditor context operand).1 = .text text) :
    (openEditor context operand).2 = context := by
  cases operand with
  | none => rfl
  | some operand =>
    rw [openEditor] at h ⊢
    split at h
    · cases h
    · rfl

/-- A command that goes elsewhere or opens the editor changes nothing if it has a text to show. -/
theorem run_of_refused [Storage σ] (now : Calendar.Moment) {operand : Option String}
    {command : Command} (hcommand : command ∈ [cd operand, su operand, vi operand])
    (htext : text ≠ "") (h : (run now context command).1 = .ok (.text text)) :
    (run now context command).2 = context := by
  simp only [List.mem_cons, List.not_mem_nil, or_false] at hcommand
  obtain rfl | rfl | rfl := hcommand
  · exact changeDirectory_of_text htext (Except.ok.inj h)
  · exact switchUser_of_text (Except.ok.inj h)
  · exact openEditor_of_text (Except.ok.inj h)

end

end Command

end PocketShell
