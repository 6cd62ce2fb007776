import PocketShell.Proofs.Command.Act
import PocketShell.Session.Call

/-!
# What commands cannot tell apart

Commands read the tree and the login of a context and write a few of its fields. So a relation
between contexts that show the same tree and the same login, but for the history, and that is kept
when the same is written on both sides, is one that commands cannot see: they answer the same and
leave related contexts. `Context.Indiscernible` has a clause for each thing that is written. Main
statements: `Command.answersAlike_run` and, for calls, `Session.answersAlike_call`.
-/

namespace PocketShell

/-- The login with another history. -/
def Login.withHistory (login : Login) (history : List String) : Login :=
  { login with history }

namespace Environment

variable (login : Login) (history : List String) (operand : String)

/-- An assignment does not read the history. -/
theorem assign_withHistory :
    assign (login.withHistory history) operand =
      ((assign login operand).1, (assign login operand).2.withHistory history) := by
  unfold assign
  extract_lets name
  split
  · rfl
  · cases Text.cutFirst? '=' operand with
    | none => rfl
    | some cut =>
      simp only
      split <;> rfl

/-- Discarding a variable does not read the history. -/
theorem discard_withHistory :
    discard (login.withHistory history) operand =
      ((discard login operand).1, (discard login operand).2.withHistory history) := by
  unfold discard
  split
  · rfl
  · split <;> rfl

/-- An assignment keeps the history. -/
theorem history_assign : (assign login operand).2.history = login.history := by
  -- The login is itself with the history that it has.
  exact congrArg (·.2.history) (assign_withHistory login login.history operand)

/-- Discarding a variable keeps the history. -/
theorem history_discard : (discard login operand).2.history = login.history := by
  exact congrArg (·.2.history) (discard_withHistory login login.history operand)

end Environment

namespace Context

variable {σ τ : Type}

/-- Two answers that are the same, with related contexts left behind. -/
def AnswersAlike {α : Type} (R : Context σ → Context τ → Prop) (first : α × Context σ)
    (second : α × Context τ) : Prop :=
  first.1 = second.1 ∧ R first.2 second.2

/-- A relation between contexts that look the same to commands, kept by all that commands do and by
saving. -/
structure Indiscernible [Storage σ] [Storage τ] (R : Context σ → Context τ → Prop) : Prop where
  files {first : Context σ} {second : Context τ} : R first second → second.files = first.files
  login {first : Context σ} {second : Context τ} : R first second →
    second.login = first.login.withHistory second.login.history
  keys {first : Context σ} {second : Context τ} : R first second → second.keys = first.keys
  withFiles {first : Context σ} {second : Context τ} : R first second → ∀ files : FileSystem,
    R { first with files } { second with files }
  withLogin {first : Context σ} {second : Context τ} : R first second → ∀ login : Login,
    login.history = first.login.history →
      R { first with login } { second with login := login.withHistory second.login.history }
  ask {first : Context σ} {second : Context τ} : R first second → ∀ request : EditRequest,
    R { first with request := some request } { second with request := some request }
  report {first : Context σ} {second : Context τ} : R first second → ∀ notice : Notice,
    R (first.report notice) (second.report notice)
  /-- A session saves nothing but under its own keys. -/
  save {first : Context σ} {second : Context τ} : R first second → ∀ key ∈ first.keys.all,
    ∀ written : String, R (first.save key written) (second.save key written)

namespace Indiscernible

variable [Storage σ] [Storage τ] {R : Context σ → Context τ → Prop} {first : Context σ}
  {second : Context τ}

/-- Indiscernible contexts read a path alike. -/
theorem resolve_eq (hR : Indiscernible R) (h : R first second) (path : String) :
    second.resolve path = first.resolve path := by
  rw [Context.resolve, hR.login h]
  rfl

/-- Indiscernible contexts make and refuse the same edits. -/
theorem answersAlike_edit (hR : Indiscernible R) (h : R first second) (path : String)
    (edit : Edit) : AnswersAlike R (first.edit path edit) (second.edit path edit) := by
  rw [Context.edit, Context.edit, hR.resolve_eq h, hR.files h]
  exact ⟨rfl, hR.withFiles h _⟩

end Indiscernible

end Context

namespace Command

open Context

variable {σ τ : Type} {R : Context σ → Context τ → Prop} {first : Context σ} {second : Context τ}

/-! ## Operands -/

/-- Two ways to take an operand that answer alike and leave related contexts. -/
def TakeAlike (R : Context σ → Context τ → Prop)
    (take : Context σ → String → Option String × Context σ)
    (take' : Context τ → String → Option String × Context τ) : Prop :=
  ∀ first second, R first second → ∀ operand,
    AnswersAlike R (take first operand) (take' second operand)

/-- A command that takes each operand alike takes all of them alike. -/
theorem answersAlike_onOperands {take : Context σ → String → Option String × Context σ}
    {take' : Context τ → String → Option String × Context τ} (htake : TakeAlike R take take')
    (h : R first second) (operands : List String) :
    AnswersAlike R (onOperands take operands first) (onOperands take' operands second) := by
  have heach : AnswersAlike R (eachOperand take operands first)
      (eachOperand take' operands second) := by
    induction operands generalizing first second with
    | nil => exact ⟨rfl, h⟩
    | cons operand operands ih =>
      obtain ⟨hmessage, hafter⟩ := htake first second h operand
      obtain ⟨hmessages, hlast⟩ := ih hafter
      exact ⟨by simp only [eachOperand, hmessage, hmessages], hlast⟩
  exact ⟨by simp only [onOperands, heach.1], heach.2⟩

/-! ## Forgetting -/

/-- On the same store a confirmed `reset` does alike if what it leaves makes no difference. -/
theorem answersAlike_forget [Storage σ] {R : Context σ → Context σ → Prop} (hR : Indiscernible R)
    {first second : Context σ} (h : R first second) (hstore : second.store = first.store)
    (hwith : ∀ store, R { first with store } { second with store }) :
    AnswersAlike R (forget first) (forget second) := by
  have hremoved : removeAll second.keys.all second.store =
      removeAll first.keys.all first.store := by rw [hR.keys h, hstore]
  rw [forget, forget, hremoved]
  split
  · exact ⟨rfl, hR.report (hwith _) _⟩
  · exact ⟨rfl, hwith _⟩

/-! ## The commands one by one -/

section
variable [Storage σ] [Storage τ] (hR : Indiscernible R)
include hR

/-- Indiscernible contexts take the operands of `mkdir` alike. -/
theorem takeAlike_makeDirectory : TakeAlike R makeDirectory makeDirectory := by
  intro first second h path
  obtain ⟨hfault, hafter⟩ := hR.answersAlike_edit h path (.create .directory)
  exact ⟨by simp only [makeDirectory, hfault], hafter⟩

/-- Indiscernible contexts take the operands of `touch` alike. -/
theorem takeAlike_makeFile : TakeAlike R makeFile makeFile := by
  intro first second h path
  obtain ⟨hfault, hafter⟩ := hR.answersAlike_edit h path (.create .file)
  exact ⟨by simp only [makeFile, hfault], hafter⟩

/-- Indiscernible contexts take the operands of `rm` alike. -/
theorem takeAlike_removeFile : TakeAlike R removeFile removeFile := by
  intro first second h path
  obtain ⟨hfault, hafter⟩ := hR.answersAlike_edit h path .remove
  exact ⟨by simp only [removeFile, hfault], hafter⟩

/-- Indiscernible contexts take the operands of `export` alike. -/
theorem takeAlike_assignVariable : TakeAlike R assignVariable assignVariable := by
  intro first second h operand
  rw [assignVariable, assignVariable, hR.login h, Environment.assign_withHistory]
  exact ⟨rfl, hR.withLogin h _ (Environment.history_assign _ _)⟩

/-- Indiscernible contexts take the operands of `unset` alike. -/
theorem takeAlike_discardVariable : TakeAlike R discardVariable discardVariable := by
  intro first second h operand
  rw [discardVariable, discardVariable, hR.login h, Environment.discard_withHistory]
  exact ⟨rfl, hR.withLogin h _ (Environment.history_discard _ _)⟩

variable (h : R first second)
include h

/-- Indiscernible contexts list the same. -/
theorem listing_eq (path : Option String) : listing second path = listing first path := by
  rw [listing, listing, hR.resolve_eq h, hR.files h]

/-- Indiscernible contexts have the same contents of files. -/
theorem content_eq (path : Option String) : content second path = content first path := by
  cases path with
  | none => rfl
  | some path => rw [content, content, hR.resolve_eq h, hR.files h]

/-- Indiscernible contexts have the same drawing. -/
theorem draw_eq : draw second = draw first := by
  rw [draw, draw, hR.files h, hR.login h]
  rfl

/-- Indiscernible contexts do alike at `cd`. -/
theorem answersAlike_changeDirectory (path : Option String) :
    AnswersAlike R (changeDirectory first path) (changeDirectory second path) := by
  have henter (shown place : String) :
      AnswersAlike R (enter first shown place) (enter second shown place) := by
    have hfound : second.files.lookup? place = first.files.lookup? place := by rw [hR.files h]
    rw [enter, enter, hfound]
    split
    · rw [hR.login h]
      exact ⟨rfl, hR.withLogin h (first.login.enter place) rfl⟩
    · exact ⟨rfl, h⟩
    · exact ⟨rfl, h⟩
  cases path with
  | none =>
    have hhome : second.login.home = first.login.home := by rw [hR.login h]; rfl
    rw [changeDirectory, changeDirectory, hhome]
    exact henter _ _
  | some path =>
    rw [changeDirectory, changeDirectory, hR.resolve_eq h]
    exact henter _ _

/-- Indiscernible contexts do alike at `su`. -/
theorem answersAlike_switchUser (user : Option String) :
    AnswersAlike R (switchUser first user) (switchUser second user) := by
  unfold switchUser
  extract_lets user
  split
  · rw [hR.login h]
    exact ⟨rfl, hR.withLogin (hR.report h _) _ rfl⟩
  · exact ⟨rfl, h⟩

/-- Indiscernible contexts do alike at `vi`. -/
theorem answersAlike_openEditor (path : Option String) :
    AnswersAlike R (openEditor first path) (openEditor second path) := by
  cases path with
  | none => exact ⟨rfl, h⟩
  | some operand =>
    have hcontent (path : String) :
        contentToEdit second.files path = contentToEdit first.files path := by rw [hR.files h]
    rw [openEditor, openEditor, hR.resolve_eq h, hcontent]
    cases contentToEdit first.files (first.resolve operand) with
    | ok content => exact ⟨rfl, hR.ask h ⟨first.resolve operand, content⟩⟩
    | error fault => exact ⟨rfl, h⟩

/-- **Commands answer alike in related contexts.** Only `history` reads the history, only `date` the
moment, and only a confirmed `reset` the store. -/
theorem answersAlike_run (now later : Calendar.Moment) {command : Command}
    (hhistory : command = .history → second.login.history = first.login.history)
    (hdate : command = .date → later = now)
    (hreset : command = .reset true → AnswersAlike R (forget first) (forget second)) :
    AnswersAlike R (run now first command) (run later second command) := by
  have hlogin := hR.login h
  have hdone {first : Outcome × Context σ} {second : Outcome × Context τ}
      (h : AnswersAlike R first second) : AnswersAlike R (done first) (done second) :=
    ⟨congrArg Except.ok h.1, h.2⟩
  cases command with
  | help | echo | clear | uname => exact ⟨rfl, h⟩
  | pwd | whoami | env | ps =>
    rw [run, run, hlogin]
    exact ⟨rfl, h⟩
  | date =>
    rw [hdate rfl]
    exact ⟨rfl, h⟩
  | history =>
    rw [run, run, hhistory rfl]
    exact ⟨rfl, h⟩
  | ls path =>
    rw [run, run, listing_eq hR h]
    exact ⟨rfl, h⟩
  | cat path =>
    rw [run, run, content_eq hR h]
    exact ⟨rfl, h⟩
  | tree =>
    rw [run, run, draw_eq hR h]
    exact ⟨rfl, h⟩
  | cd path => exact hdone (answersAlike_changeDirectory hR h path)
  | «export» args =>
    cases args with
    | nil =>
      rw [run, run, hlogin]
      exact ⟨rfl, h⟩
    | cons arg args => exact hdone (answersAlike_onOperands (takeAlike_assignVariable hR) h _)
  | unset args => exact hdone (answersAlike_onOperands (takeAlike_discardVariable hR) h args)
  | mkdir paths =>
    cases paths with
    | nil => exact ⟨rfl, h⟩
    | cons path paths => exact hdone (answersAlike_onOperands (takeAlike_makeDirectory hR) h _)
  | touch paths =>
    cases paths with
    | nil => exact ⟨rfl, h⟩
    | cons path paths => exact hdone (answersAlike_onOperands (takeAlike_makeFile hR) h _)
  | rm paths =>
    cases paths with
    | nil => exact ⟨rfl, h⟩
    | cons path paths => exact hdone (answersAlike_onOperands (takeAlike_removeFile hR) h _)
  | vi path => exact hdone (answersAlike_openEditor hR h path)
  | su user => exact hdone (answersAlike_switchUser hR h user)
  | reset confirmed =>
    cases confirmed with
    | false => exact ⟨rfl, h⟩
    | true => exact hreset rfl

end

end Command

namespace Context

variable {σ τ : Type} [Storage σ] [Storage τ] {R : Context σ → Context τ → Prop}
  {first : Context σ} {second : Context τ}

/-! ## Lines -/

section
variable (hR : Indiscernible R) (h : R first second)
include hR h

/-- A redirected output is written, or refused, alike in indiscernible contexts. -/
theorem answersAlike_divert (redirect : Redirect) (outcome : Outcome) :
    AnswersAlike R (first.divert redirect outcome) (second.divert redirect outcome) := by
  unfold divert
  extract_lets content
  have hedit := hR.answersAlike_edit h redirect.target (.write content redirect.mode)
  clear_value content
  generalize first.edit redirect.target (.write content redirect.mode) = written,
    second.edit redirect.target (.write content redirect.mode) = written' at hedit ⊢
  obtain ⟨fault, after⟩ := written
  obtain ⟨fault', after'⟩ := written'
  obtain ⟨hfault, hafter⟩ := hedit
  cases hfault
  cases fault with
  | none => exact ⟨rfl, hafter⟩
  | some fault => exact ⟨rfl, hafter⟩

/-- What a line comes to is the same in related contexts. -/
theorem answersAlike_dispatch (now : Calendar.Moment) {input : String}
    (hhistory : second.login.history = first.login.history)
    (hreset : Line.command? input = some (.reset true) →
      AnswersAlike R (Command.forget first) (Command.forget second)) :
    AnswersAlike R (first.dispatch now input) (second.dispatch now input) := by
  unfold dispatch
  split
  · exact ⟨rfl, h⟩
  · next line hline =>
    unfold answer
    split
    · exact ⟨rfl, h⟩
    · next command hcommand =>
      have hinput : Line.command? input = some command := by
        rw [Line.command?, hline]
        exact hcommand
      have hrun := Command.answersAlike_run hR h now now (fun _ => hhistory) (fun _ => rfl)
        fun hconfirmed => hreset (hconfirmed ▸ hinput)
      generalize command.run now first = ran, command.run now second = ran' at hrun ⊢
      obtain ⟨result, after⟩ := ran
      obtain ⟨result', after'⟩ := ran'
      obtain ⟨hresult, hafter⟩ := hrun
      cases hresult
      cases result with
      | error error => exact ⟨rfl, hR.report hafter _⟩
      | ok outcome =>
        cases line.redirect with
        | none => exact ⟨rfl, hafter⟩
        | some redirect => exact answersAlike_divert hR hafter redirect outcome
  · exact ⟨rfl, h⟩

/-! ## Saving -/

/-- Indiscernible contexts stay so when both save their tree, which is the same text under the same
key. -/
theorem related_saveTree : R first.saveTree second.saveTree := by
  have hsaved := hR.save (hR.withFiles h first.files.settled) first.keys.tree
    first.keys.tree_mem_all first.files.root.toJson
  simpa only [saveTree, hR.files h, hR.keys h] using hsaved

/-- Indiscernible contexts stay so when both save their current path. -/
theorem related_saveDirectory : R first.saveDirectory second.saveDirectory := by
  have hsame : second.login.directory = first.login.directory := by rw [hR.login h]; rfl
  rw [saveDirectory, saveDirectory, hR.keys h, hsame]
  exact hR.save h _ first.keys.directory_mem_all _

/-- Indiscernible contexts stay so when both save their user. -/
theorem related_saveUser : R first.saveUser second.saveUser := by
  have hsame : second.login.user = first.login.user := by rw [hR.login h]; rfl
  rw [saveUser, saveUser, hR.keys h, hsame]
  exact hR.save h _ first.keys.user_mem_all _

/-- Indiscernible contexts stay so when both save a tree that has changed: both trees carry the same
mark of change. -/
theorem related_persistTree : R first.persistTree second.persistTree := by
  unfold persistTree
  rw [hR.files h]
  split
  · exact related_saveTree hR h
  · exact h

/-- Indiscernible contexts stay so when both persist what has changed since logins of the same user
in the same directory. -/
theorem related_persist {before before' : Login} (hdirectory : before'.directory = before.directory)
    (huser : before'.user = before.user) : R (first.persist before) (second.persist before') := by
  have persistDirectory {first : Context σ} {second : Context τ} (h : R first second) :
      R (first.persistDirectory before) (second.persistDirectory before') := by
    have hsame : second.login.directory = first.login.directory := by rw [hR.login h]; rfl
    unfold Context.persistDirectory
    rw [hsame, hdirectory]
    split
    · exact h
    · exact related_saveDirectory hR h
  have persistUser {first : Context σ} {second : Context τ} (h : R first second) :
      R (first.persistUser before) (second.persistUser before') := by
    have hsame : second.login.user = first.login.user := by rw [hR.login h]; rfl
    unfold Context.persistUser
    rw [hsame, huser]
    split
    · exact h
    · exact related_saveUser hR h
  exact persistUser (persistDirectory (related_persistTree hR h))

end

end Context

namespace Session

open Context

variable {σ τ : Type} [Storage σ] [Storage τ] {R : Context σ → Context τ → Prop}
  {first : Session σ} {second : Session τ}

/-! ## Calls -/

section
variable (hR : Indiscernible R) (h : R first.toContext second.toContext)
include hR h

/-- **Lines are answered alike in related sessions.** -/
theorem answersAlike_execute (now : Calendar.Moment) {input : String}
    (hrecord : R (first.record input) (second.record input))
    (hhistory : second.login.history = first.login.history)
    (hreset : Line.command? input = some (.reset true) →
      AnswersAlike R (Command.forget (first.record input)) (Command.forget (second.record input))) :
    (first.execute now input).1 = (second.execute now input).1 ∧
      R (first.execute now input).2.toContext (second.execute now input).2.toContext := by
  by_cases hblank : Text.isAllBlank input
  · rw [execute_of_blank now first hblank, execute_of_blank now second hblank]
    exact ⟨rfl, h⟩
  · have hrecorded : (second.record input).login.history = (first.record input).login.history :=
      congrArg (· ++ [input]) hhistory
    obtain ⟨houtcome, hafter⟩ := answersAlike_dispatch hR hrecord now hrecorded hreset
    have hlogin := hR.login h
    have hdirectory : second.login.directory = first.login.directory := by rw [hlogin]; rfl
    have huser : second.login.user = first.login.user := by rw [hlogin]; rfl
    have hpersist := related_persist hR hafter hdirectory huser
    rw [execute_of_not_blank now first hblank, execute_of_not_blank now second hblank]
    exact ⟨houtcome, hpersist⟩

/-- Indiscernible contexts answer a save of the editor alike and stay indiscernible. -/
theorem answersAlike_saveFile (path content : String) :
    (first.saveFile path content).1 = (second.saveFile path content).1 ∧
      R (first.saveFile path content).2.toContext (second.saveFile path content).2.toContext := by
  have hedit : second.files.edit (Path.resolve second.login.directory path)
      (.write content .overwrite) = first.files.edit (Path.resolve first.login.directory path)
      (.write content .overwrite) := by
    rw [hR.files h, hR.login h]
    rfl
  cases hfirst : first.files.edit (Path.resolve first.login.directory path)
      (.write content .overwrite) with
  | error fault =>
    rw [saveFile_of_error first hfirst, saveFile_of_error second (hedit.trans hfirst)]
    exact ⟨rfl, h⟩
  | ok files =>
    rw [saveFile_of_ok first hfirst, saveFile_of_ok second (hedit.trans hfirst)]
    exact ⟨rfl, related_persistTree hR (hR.withFiles h files)⟩

/-- **Calls are answered alike in related sessions**, if they also look the same in what only some
calls read: the history, the request for the editor and, where a `reset` is confirmed, the store. -/
theorem answersAlike_call (call : Call)
    (hrecord : ∀ line, R (first.record line) (second.record line))
    (hhistory : second.login.history = first.login.history)
    (hrequest : second.request = first.request)
    (hhandOver : R first.takeRequest.2.toContext second.takeRequest.2.toContext)
    (hreset : ∀ now line, call = .execute now line → Line.command? line = some (.reset true) →
      AnswersAlike R (Command.forget (first.record line)) (Command.forget (second.record line))) :
    (first.call call).1 = (second.call call).1 ∧
      R (first.call call).2.toContext (second.call call).2.toContext := by
  cases call with
  | execute now line =>
    obtain ⟨houtcome, hafter⟩ := answersAlike_execute hR h now (hrecord line) hhistory
      (hreset now line rfl)
    exact ⟨congrArg Reply.outcome houtcome, hafter⟩
  | saveFile path content =>
    obtain ⟨hfault, hafter⟩ := answersAlike_saveFile hR h path content
    rw [call_saveFile_snd, call_saveFile_snd]
    exact ⟨congrArg Reply.saved hfault, hafter⟩
  | complete input =>
    refine ⟨?_, h⟩
    rw [Session.call, Session.call, completion, completion, hR.files h, hR.login h]
    rfl
  | takeRequest => exact ⟨congrArg Reply.request hrequest.symm, hhandOver⟩

end

/-- What was not restored is saved alike in related contexts. -/
theorem related_saveUnrestored (hR : Indiscernible R) (restored : Restored) {first : Context σ}
    {second : Context τ} (h : R first second) :
    R (saveUnrestored restored first) (saveUnrestored restored second) := by
  have htree : R (if restored.files.isSome then first else first.saveTree)
      (if restored.files.isSome then second else second.saveTree) := by
    split
    · exact h
    · exact related_saveTree hR h
  unfold saveUnrestored
  extract_lets tree directory tree' directory'
  have hdirectory : R directory directory' := by
    unfold directory directory'
    split
    · exact htree
    · exact related_saveDirectory hR htree
  split
  · exact hdirectory
  · exact related_saveUser hR hdirectory

end Session

end PocketShell
