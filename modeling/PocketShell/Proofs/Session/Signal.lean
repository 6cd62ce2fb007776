import PocketShell.Proofs.Command.Frame
import PocketShell.Proofs.Session.Redirection

/-!
# Signals

A host learns only from the outcome of a line that a file is to be edited, or that the user is
another. The command of the line brings that about; what the line comes to is settled after it, when
the output is redirected. `Command.Ran` says in which ways a command can end, and `Context.Signals`
how the outcome of a line and the context after it go together. Main statement:
`Session.signals_of_execute`.
-/

namespace PocketShell

/-- The redirection of a line, if it has one. -/
def Line.redirect? (input : String) : Option Redirect :=
  match Line.parse input with
  | .ok (some line) => line.redirect
  | _ => none

/-- The outcome tells the host of no file and of no user. -/
def Outcome.IsPlain : Outcome → Prop
  | text _ | clearScreen => True
  | editorOpened | userSwitched _ => False

/-- Becoming a user does not change the home. -/
theorem Login.home_become (login : Login) (user : String) :
    (login.become user).home = login.home := by
  simp [home, become, Named.get?_put]

namespace Context

variable {σ : Type}

/-! ## What commands do with the request and the user -/

/-- The request for the editor and the user have stayed as they were. -/
structure Calm (before after : Context σ) : Prop where
  request : after.request = before.request
  user : after.login.user = before.login.user

/-- A context that stays as it is keeps its request and its user. -/
theorem Calm.refl (context : Context σ) : context.Calm context :=
  ⟨rfl, rfl⟩

/-- Two changes that keep the request and the user, one after the other, keep them. -/
theorem Calm.trans {first second third : Context σ} (h : first.Calm second)
    (h' : second.Calm third) : first.Calm third :=
  ⟨h'.request.trans h.request, h'.user.trans h.user⟩

/-- A change of a part other than these two keeps the request and the user. -/
theorem ChangesOnly.calm {part? : Option Part} {before after : Context σ}
    (h : ChangesOnly part? before after) (huser : part? ≠ some .user)
    (hrequest : part? ≠ some .request) : before.Calm after :=
  ⟨h.same .request hrequest, (h.same .user huser).1⟩

end Context

namespace Command

variable {σ : Type}

open Context (Calm ChangesOnly)

/-- The ways in which a command can end: with a request for the editor, with another user, or with
neither. -/
inductive Ran (context : Context σ) : Except CommandError Outcome × Context σ → Prop
  | opened (request : EditRequest) :
      Ran context (.ok .editorOpened, { context with request := some request })
  | switched (user : String) (notice : Notice) :
      Ran context (.ok (.userSwitched user),
        { context.report notice with login := context.login.become user })
  | plain {outcome : Outcome} {after : Context σ} : outcome.IsPlain → context.Calm after →
      Ran context (.ok outcome, after)
  | broken (error : CommandError) {after : Context σ} : context.Calm after →
      Ran context (.error error, after)

/-- A command that shows a text and keeps the request and the user ends plainly. -/
theorem ran_done {context : Context σ} {answer : Outcome × Context σ} (houtcome : answer.1.IsPlain)
    (hcalm : context.Calm answer.2) : Ran context (done answer) :=
  .plain houtcome hcalm

/-- A command that takes operands one after another ends plainly if they keep the request and the
user. -/
theorem ran_onOperands {part? : Option Part}
    {take : Context σ → String → Option String × Context σ}
    (htake : ∀ context operand, ChangesOnly part? context (take context operand).2)
    (huser : part? ≠ some .user) (hrequest : part? ≠ some .request) (operands : List String)
    (context : Context σ) : Ran context (done (onOperands take operands context)) :=
  ran_done trivial ((changesOnly_onOperands htake operands context).calm huser hrequest)

/-- `cd` ends plainly. -/
theorem ran_changeDirectory (context : Context σ) (path : Option String) :
    Ran context (done (changeDirectory context path)) := by
  have henter (shown place : String) : Ran context (done (enter context shown place)) := by
    unfold enter
    split <;> exact ran_done trivial ⟨rfl, rfl⟩
  cases path with
  | none =>
    rw [changeDirectory]
    exact henter _ _
  | some path =>
    rw [changeDirectory]
    exact henter _ _

/-- `vi` ends with a request and the signal for it, or plainly. -/
theorem ran_openEditor (context : Context σ) (path : Option String) :
    Ran context (done (openEditor context path)) := by
  cases path with
  | none => exact ran_done trivial (.refl context)
  | some operand =>
    rw [openEditor]
    split
    · exact .opened _
    · exact ran_done trivial (.refl context)

/-- `su` ends with another user and the signal for it, or plainly. -/
theorem ran_switchUser (context : Context σ) (user : Option String) :
    Ran context (done (switchUser context user)) := by
  unfold switchUser
  extract_lets user
  split
  · exact .switched user _
  · exact ran_done trivial (.refl context)

/-- A confirmed `reset` ends plainly, or breaks. -/
theorem ran_forget [Storage σ] (context : Context σ) : Ran context (forget context) := by
  unfold forget
  split
  · exact .plain trivial ⟨rfl, rfl⟩
  · exact .broken _ ⟨rfl, rfl⟩

/-- Every command ends in one of the four ways. -/
theorem ran_run [Storage σ] (now : Calendar.Moment) (context : Context σ) (command : Command) :
    Ran context (run now context command) := by
  cases command with
  | help | ls | pwd | cat | echo | clear | whoami | date | uname | env | history | ps =>
    rw [run]
    exact ran_done trivial (.refl context)
  | tree =>
    rw [run, draw]
    split
    · exact .plain trivial (.refl context)
    · exact .broken _ (.refl context)
  | cd path => exact ran_changeDirectory context path
  | «export» args =>
    cases args with
    | nil => exact ran_done trivial (.refl context)
    | cons arg args => exact ran_onOperands changesOnly_assignVariable (by decide) (by decide) _ context
  | unset args => exact ran_onOperands changesOnly_discardVariable (by decide) (by decide) args context
  | mkdir paths =>
    cases paths with
    | nil => exact ran_done trivial (.refl context)
    | cons path paths => exact ran_onOperands changesOnly_makeDirectory (by decide) (by decide) _ context
  | touch paths =>
    cases paths with
    | nil => exact ran_done trivial (.refl context)
    | cons path paths => exact ran_onOperands changesOnly_makeFile (by decide) (by decide) _ context
  | rm paths =>
    cases paths with
    | nil => exact ran_done trivial (.refl context)
    | cons path paths => exact ran_onOperands changesOnly_removeFile (by decide) (by decide) _ context
  | vi path => exact ran_openEditor context path
  | su user => exact ran_switchUser context user
  | reset confirmed =>
    cases confirmed with
    | false => exact ran_done trivial (.refl context)
    | true => exact ran_forget context

end Command

namespace Context

variable {σ : Type}

/-! ## Lines -/

/-- What is shown if the output goes to a place that cannot be written. Which places these are does
not depend on the output: the empty text is tried. -/
def refusal? (context : Context σ) (redirect? : Option Redirect) : Option String :=
  redirect?.bind fun redirect =>
    (context.write redirect .silent).1.map fun fault =>
      "bash: " ++ redirect.target ++ ": " ++ fault.message

/-- Whether a target can be written to depends on the tree and the login alone. -/
theorem refusal?_congr {first second : Context σ} (hfiles : second.files = first.files)
    (hlogin : second.login = first.login) (redirect? : Option Redirect) :
    second.refusal? redirect? = first.refusal? redirect? := by
  simp only [refusal?, write, edit, resolve, hfiles, hlogin]

/-- How the outcome of a line and the context after it go together. A new request and another user
are both announced, unless there is a refusal, which is then shown in place of the signal. -/
inductive Signals (refusal? : Option String) (before : Context σ) (outcome : Outcome)
    (after : Context σ) : Prop
  | opened (request : EditRequest) : after.request = some request →
      after.login.user = before.login.user → outcome = refusal?.elim .editorOpened .text →
      Signals refusal? before outcome after
  | switched : after.request = before.request →
      outcome = refusal?.elim (.userSwitched after.login.user) .text →
      Signals refusal? before outcome after
  | plain : outcome.IsPlain → before.Calm after → Signals refusal? before outcome after

/-- Writing an output changes the tree at most. -/
theorem write_snd (context : Context σ) (redirect : Redirect) (outcome : Outcome) :
    ∃ files, (context.write redirect outcome).2 = { context with files } :=
  ⟨_, context.edit_snd _ _⟩

/-- A signal is announced after its redirection, or what is shown in its place. The tree and the
places that paths denote are those before the command. -/
theorem exists_divert_eq_of_isSignal {before during : Context σ}
    (hfiles : during.files = before.files)
    (hplace : ∀ path, during.resolve path = before.resolve path) (redirect : Redirect)
    {outcome : Outcome} (h : outcome.isSignal) :
    ∃ files, during.divert redirect outcome =
      ((before.refusal? (some redirect)).elim outcome .text, { during with files }) := by
  have htext : outcome.text?.getD "" = Outcome.silent.text?.getD "" := by
    cases outcome with
    | text => cases h
    | clearScreen | editorOpened | userSwitched => rfl
  have hwrite : (during.write redirect outcome).1 = (before.write redirect .silent).1 := by
    rw [write, write, htext, edit, edit, hplace, hfiles]
  obtain ⟨files, hafter⟩ := during.write_snd redirect outcome
  refine ⟨files, ?_⟩
  rw [divert_eq, hafter, hwrite, refusal?, Option.bind_some]
  cases (before.write redirect .silent).1 with
  | none => exact congrArg (·, _) (if_pos h)
  | some fault => rfl

/-- Redirecting a plain outcome is plain, and changes the tree at most. -/
theorem exists_divert_eq_of_isPlain (context : Context σ) (redirect : Redirect) {outcome : Outcome}
    (h : outcome.IsPlain) :
    ∃ shown files, context.divert redirect outcome = (shown, { context with files }) ∧
      shown.IsPlain := by
  obtain ⟨files, hafter⟩ := context.write_snd redirect outcome
  refine ⟨_, files, by rw [divert_eq, hafter], ?_⟩
  cases (context.write redirect outcome).1 with
  | none =>
    rw [Redirect.shown]
    split
    · exact h
    · trivial
  | some fault => trivial

section
variable [Storage σ] (context : Context σ)

/-- Answering a line announces a new request and another user, unless the output is refused. The
refusal is that of the context before: no command that announces something edits the tree. -/
theorem signals_answer (now : Calendar.Moment) (line : Line) :
    context.Signals (context.refusal? line.redirect) (context.answer now line).1
      (context.answer now line).2 := by
  unfold answer
  split
  · exact .plain trivial (.refl context)
  · next command _ =>
    have hran := Command.ran_run now context command
    generalize command.run now context = ran at hran ⊢
    cases hran with
    | broken error hcalm => exact .plain trivial ⟨hcalm.request, hcalm.user⟩
    | @plain outcome after houtcome hcalm =>
      cases line.redirect with
      | none => exact .plain houtcome hcalm
      | some redirect =>
        obtain ⟨shown, files, hdivert, hshown⟩ :=
          after.exists_divert_eq_of_isPlain redirect houtcome
        simp only [hdivert]
        exact .plain hshown ⟨hcalm.request, hcalm.user⟩
    | opened request =>
      cases line.redirect with
      | none => exact .opened request rfl rfl rfl
      | some redirect =>
        -- The target does not depend on the request, so it is refused now if it was before.
        let during := { context with request := some request }
        have hfiles : during.files = context.files := rfl
        have hplace (path : String) : during.resolve path = context.resolve path := rfl
        obtain ⟨files, hdivert⟩ :=
          exists_divert_eq_of_isSignal hfiles hplace redirect (rfl : Outcome.editorOpened.isSignal)
        simp only [during] at hdivert
        simp only [hdivert]
        exact .opened request rfl rfl rfl
    | switched user notice =>
      cases line.redirect with
      | none => exact .switched rfl rfl
      | some redirect =>
        -- Neither does it depend on the user: the home stays that of the first one.
        let during := { context.report notice with login := context.login.become user }
        have hfiles : during.files = context.files := rfl
        have hplace (path : String) : during.resolve path = context.resolve path := by
          rw [resolve, Login.home_become]
          rfl
        obtain ⟨files, hdivert⟩ := exists_divert_eq_of_isSignal hfiles hplace redirect
          (rfl : (Outcome.userSwitched user).isSignal)
        simp only [during] at hdivert
        simp only [hdivert]
        exact .switched rfl rfl

/-- Running a text announces a new request and another user, unless the output is refused. -/
theorem signals_dispatch (now : Calendar.Moment) (input : String) :
    context.Signals (context.refusal? (Line.redirect? input)) (context.dispatch now input).1
      (context.dispatch now input).2 := by
  rw [dispatch, Line.redirect?]
  cases Line.parse input with
  | error error => exact .plain trivial (.refl context)
  | ok line? =>
    cases line? with
    | none => exact .plain trivial (.refl context)
    | some line => exact context.signals_answer now line

end

/-- Of what was before a line and of what is after it only the request and the user count. -/
theorem Signals.frame {refusal? : Option String} {before before' after after' : Context σ}
    {outcome : Outcome} (h : before.Signals refusal? outcome after) (hbefore : before'.Calm before)
    (hafter : after.Calm after') : before'.Signals refusal? outcome after' := by
  cases h with
  | opened request hrequest huser houtcome =>
    exact .opened request (hafter.request.trans hrequest)
      (hafter.user.trans (huser.trans hbefore.user)) houtcome
  | switched hrequest houtcome =>
    refine .switched (hafter.request.trans (hrequest.trans hbefore.request)) ?_
    rw [hafter.user]
    exact houtcome
  | plain houtcome hcalm => exact .plain houtcome ((hbefore.trans hcalm).trans hafter)

/-- Where no request was waiting, one that is there afterwards is announced. -/
theorem Signals.announced {refusal? : Option String} {before after : Context σ} {outcome : Outcome}
    (h : before.Signals refusal? outcome after) (hnone : before.request = none) :
    (after.request.isSome → outcome = refusal?.elim .editorOpened .text) ∧
      (after.login.user ≠ before.login.user →
        outcome = refusal?.elim (.userSwitched after.login.user) .text) ∧
      (outcome = .editorOpened → after.request.isSome) ∧
      ∀ user, outcome = .userSwitched user → after.login.user = user := by
  cases h with
  | opened request hrequest huser houtcome =>
    refine ⟨fun _ => houtcome, fun hchanged => absurd huser hchanged, fun _ => by simp [hrequest],
      fun user heq => ?_⟩
    rw [houtcome] at heq
    cases refusal? <;> cases heq
  | switched hrequest houtcome =>
    refine ⟨fun hsome => ?_, fun _ => houtcome, fun heq => ?_, fun user heq => ?_⟩
    · rw [hrequest, hnone] at hsome
      cases hsome
    · rw [houtcome] at heq
      cases refusal? <;> cases heq
    · rw [houtcome] at heq
      cases refusal? with
      | none => cases heq; rfl
      | some text => cases heq
  | plain houtcome hcalm =>
    refine ⟨fun hsome => ?_, fun hchanged => absurd hcalm.user hchanged, ?_, ?_⟩
    · rw [hcalm.request, hnone] at hsome
      cases hsome
    · rintro rfl
      cases houtcome
    · rintro user rfl
      cases houtcome

/-! ## Earlier requests -/

/-- The context with an earlier request, if it has none of its own. -/
def awaiting (earlier : Option EditRequest) (context : Context σ) : Context σ :=
  { context with request := context.request.or earlier }

section
variable [Storage σ] (earlier : Option EditRequest)

/-- What is saved does not depend on an earlier request. -/
theorem save_awaiting (context : Context σ) (key written : String) :
    (context.awaiting earlier).save key written = (context.save key written).awaiting earlier := by
  have hstore : (context.awaiting earlier).store = context.store := rfl
  rw [save, save, hstore]
  split <;> rfl

/-- A context and the same without an earlier request are indiscernible: no command reads the
request. -/
theorem indiscernible_awaiting :
    Indiscernible fun first second : Context σ => first = second.awaiting earlier where
  files h := by rw [h]; rfl
  login h := by rw [h]; rfl
  keys h := by rw [h]; rfl
  withFiles h files := by rw [h]; rfl
  withLogin {first second} h login hhistory := by
    have hsame : second.login.history = login.history := by
      rw [hhistory, h]
      rfl
    rw [h, hsame]
    rfl
  ask h request := by rw [h]; rfl
  report h notice := by rw [h]; rfl
  save h key _ written := by rw [h, save_awaiting]

end

end Context

namespace Session

variable {σ : Type} [Storage σ]

/-- The request that a line makes: what the host finds after it if it has taken the earlier one. -/
def asked (now : Calendar.Moment) (session : Session σ) (input : String) : Option EditRequest :=
  (session.takeRequest.2.execute now input).2.request

/-- A line does the same whether an earlier request has been taken or not. -/
theorem execute_takeRequest (now : Calendar.Moment) (session : Session σ) (input : String) :
    (session.execute now input).1 = (session.takeRequest.2.execute now input).1 ∧
      (session.execute now input).2.toContext =
        (session.takeRequest.2.execute now input).2.toContext.awaiting session.request := by
  have hsession : session.toContext = session.takeRequest.2.toContext.awaiting session.request :=
    rfl
  have hrecord : session.record input =
      (session.takeRequest.2.record input).awaiting session.request := rfl
  exact answersAlike_execute (Context.indiscernible_awaiting session.request) hsession now hrecord
    rfl fun _ => Command.answersAlike_forget (Context.indiscernible_awaiting session.request)
      hrecord rfl fun _ => rfl

/-- Executing a line announces a new request and another user, unless the output is refused. -/
theorem signals_execute (now : Calendar.Moment) (session : Session σ) (input : String) :
    session.toContext.Signals (session.refusal? (Line.redirect? input))
      (session.execute now input).1 (session.execute now input).2.toContext := by
  by_cases hblank : Text.isAllBlank input
  · rw [execute_of_blank now session hblank]
    exact .plain trivial (.refl _)
  · rw [execute_of_not_blank now session hblank]
    obtain ⟨store, notices, hpersist⟩ :=
      ((session.record input).dispatch now input).2.persist_eq session.login
    rw [hpersist]
    exact ((session.record input).signals_dispatch now input).frame ⟨rfl, rfl⟩ ⟨rfl, rfl⟩

/-- **No signal is lost to a host, but to a redirection that fails.** A line that makes a request
for the editor comes to `editorOpened`, and one that changes the user to `userSwitched` with the
user that is then current; only if the output of the line is redirected to a place that cannot be
written does it come to that refusal in place of the signal. Neither signal comes without its
cause. -/
theorem signals_of_execute (now : Calendar.Moment) (session : Session σ) (input : String) :
    let executed := session.execute now input
    let asked := session.asked now input
    let refusal? := session.refusal? (Line.redirect? input)
    executed.2.request = asked.or session.request ∧
      (asked.isSome → executed.1 = refusal?.elim .editorOpened .text) ∧
      (executed.2.login.user ≠ session.login.user →
        executed.1 = refusal?.elim (.userSwitched executed.2.login.user) .text) ∧
      (executed.1 = .editorOpened → asked.isSome) ∧
      ∀ user, executed.1 = .userSwitched user → executed.2.login.user = user := by
  intro executed asked refusal?
  obtain ⟨houtcome, hafter⟩ := execute_takeRequest now session input
  have hlogin : executed.2.login = (session.takeRequest.2.execute now input).2.login :=
    congrArg (·.login) hafter
  have hrefusal : session.takeRequest.2.refusal? (Line.redirect? input) = refusal? :=
    Context.refusal?_congr rfl rfl _
  have hsignals := (signals_execute now session.takeRequest.2 input).announced rfl
  rw [hrefusal, ← houtcome, ← hlogin] at hsignals
  exact ⟨congrArg (·.request) hafter, hsignals⟩

/-- A redirection to a directory keeps both signals from the host. -/
theorem signals_lost_of_directory :
    let session := start (Settings.forUser "user") (MemoryStore.mk ∅)
    let opened := session.execute ⟨0, 0⟩ "vi notes.txt > /etc"
    let switched := session.execute ⟨0, 0⟩ "su root > /etc"
    ((session.asked ⟨0, 0⟩ "vi notes.txt > /etc").isSome ∧ opened.1 ≠ .editorOpened) ∧
      switched.2.login.user ≠ session.login.user ∧
      switched.1 ≠ .userSwitched switched.2.login.user := by
  decide +kernel

end Session

end PocketShell
