import PocketShell.Proofs.Command.History
import PocketShell.Proofs.Line.Print
import PocketShell.Proofs.Session.Beginning
import PocketShell.Proofs.Session.Editing
import PocketShell.Proofs.Session.Store

/-!
# Redirection

A redirection at the end of a line changes neither the command of the line nor its arguments: the
command does what it would have done, and then what it came to is written to the target.
`Session.executeThenWrite` does one after the other, and saves after each. Main statement:
`Session.execute_redirected`.
-/

namespace PocketShell

open KeepingStorage (values Accepts)

/-! ## The line -/

/-- A target that is read from the end of a line as it is written there. -/
structure Redirect.WellFormed (redirect : Redirect) : Prop where
  nonempty : redirect.target.toList ≠ []
  trimmed : Text.IsTrimmed redirect.target.toList
  /-- The operator does not stand in it again. -/
  free : ¬ (Line.operator redirect.mode).toList <:+: redirect.target.toList

namespace Line

/-- A line with a redirection at its end. -/
def redirected (input : String) (redirect : Redirect) : String :=
  input ++ " " ++ operator redirect.mode ++ " " ++ redirect.target

section
variable {input : String} {name rest : List Char} {redirect : Redirect}

/-- A redirection at the end of a line leaves its first word. -/
theorem firstWord_redirected (h : FirstWord input name rest) :
    FirstWord (redirected input redirect) name (rest ++ redirectChars (some redirect)) := by
  obtain ⟨hword, ⟨blanks, hblanks, heq⟩, hrest⟩ := h
  refine ⟨hword, ⟨blanks, hblanks, ?_⟩, fun c hc => ?_⟩
  · simp [redirected, redirectChars, heq]
  · cases rest with
    | nil =>
      obtain rfl : ' ' = c := by simpa [redirectChars] using hc
      rfl
    | cons first rest => exact hrest c hc

/-- A redirection that is put at the end of a line without one is the one that is read. -/
theorem chosen_redirected (hrest : '>' ∉ rest) (hredirect : redirect.WellFormed) :
    Chosen (rest ++ redirectChars (some redirect)) (rest ++ [' ']) (' ' :: redirect.target.toList)
      redirect.mode := by
  obtain ⟨target, mode⟩ := redirect
  cases mode with
  | append =>
    have hfree : ¬ ['>', '>'] <:+: target.toList := by simpa [operator] using hredirect.free
    refine .append ⟨by simp [redirectChars, operator], fun hlater => hfree ?_⟩
    exact infix_target hlater
  | overwrite =>
    have htarget : '>' ∉ target.toList := by
      simpa [operator, List.singleton_infix_iff] using hredirect.free
    refine .overwrite (fun hmark => ?_) ⟨by simp [redirectChars, operator], fun hlater => ?_⟩
    · have hsplit : ['>', '>'] <:+: rest ++ ' ' :: '>' :: ' ' :: target.toList := by
        simpa [redirectChars, operator] using hmark
      rcases Text.infix_of_infix_append_cons (by decide) hsplit with hfront | hback
      · exact hrest (hfront.subset (by simp))
      · exact htarget ((infix_target hback).subset (by simp))
    · exact htarget (by simpa using (List.singleton_infix_iff _ _).mp hlater)

/-- A redirection at the end of a line leaves its name and its arguments as they are. -/
theorem exists_parse_redirected (hinput : FirstWord input name rest) (hrest : '>' ∉ rest)
    (hredirect : redirect.WellFormed) :
    ∃ args, parse input = .ok (some ⟨String.ofList name, args, none⟩) ∧
      parse (redirected input redirect) =
        .ok (some ⟨String.ofList name, args, some redirect⟩) := by
  refine ⟨(Text.wordLists rest).map String.ofList, ?_, ?_⟩
  · rw [parse_of_firstWord hinput, ofParts_of_not_mem hrest]
    rfl
  · have htarget := Text.trim_cons_blank (c := ' ') rfl hredirect.trimmed
    rw [parse_of_firstWord (firstWord_redirected hinput),
      ofParts_of_chosen (chosen_redirected hrest hredirect), htarget, if_neg hredirect.nonempty,
      Text.wordLists_append_blank rfl, Text.wordLists_nil, List.append_nil, String.ofList_toList]
    rfl

end

end Line

/-! ## Writing -/

/-- A write that is not refused always answers a tree, also where the content is the same. -/
theorem Edit.applyTo_write_ne_none (root : Node) (path content : String) (mode : WriteMode) :
    (write content mode).applyTo root path ≠ .ok none := by
  have hentries (entries : Named Node) (name : String) :
      (write content mode).applyAt entries name ≠ .ok none := by
    rw [applyAt]
    split <;> simp
  unfold applyTo
  split
  · simp [rootFault?]
  · split
    · simp
    · simp
    · next entries _ =>
      split
      · simp
      · next hnone => exact absurd hnone (hentries entries _)
      · simp

namespace FileSystem

variable {fs after : FileSystem} {path content : String} {mode : WriteMode}

/-- A write that is not refused leaves the mark of change. -/
theorem changed_of_edit_write (h : fs.edit path (.write content mode) = .ok after) :
    after.changed = true := by
  rcases edit_eq_ok h with ⟨hnone, -⟩ | ⟨-, hchanged⟩
  · exact absurd hnone (Edit.applyTo_write_ne_none _ _ _ _)
  · exact hchanged

/-- Whether a change was saved makes no difference to a write. -/
theorem edit_write_settled (fs : FileSystem) (path content : String) (mode : WriteMode) :
    fs.settled.edit path (.write content mode) = fs.edit path (.write content mode) := by
  have hwrite := Edit.applyTo_write_ne_none fs.root path content mode
  obtain ⟨root, changed, rooted, distinct⟩ := fs
  unfold FileSystem.edit settled
  simp only
  split
  · rfl
  · next hnone => exact absurd hnone hwrite
  · rfl

end FileSystem

/-- What is shown after an outcome was written to a target, or could not be. -/
def Redirect.shown (redirect : Redirect) (outcome : Outcome) : Option Fault → Outcome
  | some fault => .text ("bash: " ++ redirect.target ++ ": " ++ fault.message)
  | none => if outcome.isSignal then outcome else .silent

namespace Context

variable {σ : Type}

/-- An edit that the tree allows is made. -/
theorem edit_of_ok {context : Context σ} {path : String} {edit : Edit} {files : FileSystem}
    (h : context.files.edit (context.resolve path) edit = .ok files) :
    context.edit path edit = (none, { context with files }) := by
  rw [Context.edit, FileSystem.attempt_of_ok h]

/-- An edit that the tree refuses changes nothing. -/
theorem edit_of_error {context : Context σ} {path : String} {edit : Edit} {fault : Fault}
    (h : context.files.edit (context.resolve path) edit = .error fault) :
    context.edit path edit = (some fault, context) := by
  rw [Context.edit, FileSystem.attempt_of_error h]

/-- Writes the text of an outcome to the target of a redirection; a signal has none. -/
def write (context : Context σ) (redirect : Redirect) (outcome : Outcome) :
    Option Fault × Context σ :=
  context.edit redirect.target (.write (outcome.text?.getD "") redirect.mode)

/-- Redirecting an outcome is to write it and to show what came of that. -/
theorem divert_eq (context : Context σ) (redirect : Redirect) (outcome : Outcome) :
    context.divert redirect outcome =
      (redirect.shown outcome (context.write redirect outcome).1,
        (context.write redirect outcome).2) := by
  unfold divert
  extract_lets content
  split <;> next hedit => rw [write, hedit]; rfl

variable [Storage σ]

/-- Writing an output does not read the history. -/
theorem write_withHistory (context : Context σ) (history : List String) (redirect : Redirect)
    (outcome : Outcome) : (context.withHistory history).write redirect outcome =
      ((context.write redirect outcome).1,
        (context.write redirect outcome).2.withHistory history) :=
  edit_withHistory context history _ _

/-! ## Saving -/

variable [KeepingStorage σ]

/-- What saving leaves in a store that accepts it. -/
theorem exists_persist_eq (context : Context σ) (before : Login)
    (h : Accepts context.store) : ∃ store,
    context.persist before = { context with files := context.files.settled, store } ∧
      Accepts store ∧ ∀ key, Storage.load store key =
        if ¬ context.login.user = before.user ∧ context.keys.user = key then
          some (Json.quote context.login.user)
        else if ¬ context.login.directory = before.directory ∧ context.keys.directory = key then
          some (Json.quote context.login.directory)
        else if ¬ context.files.changed = false ∧ context.keys.tree = key then
          some context.files.root.toJson
        else Storage.load context.store key := by
  let settled : Context σ := { context with files := context.files.settled }
  obtain ⟨store, hsaves, haccepts, hload⟩ :=
    settled.exists_saves_eq (p := context.files.changed = false)
      (q := context.login.directory = before.directory) (r := context.login.user = before.user) h
  have htree : context.persistTree = if context.files.changed = false then settled
      else settled.save context.keys.tree context.files.root.toJson := by
    cases hchanged : context.files.changed with
    | false =>
      rw [if_pos rfl, persistTree, if_neg (by simp [hchanged])]
      simp only [settled, FileSystem.settled_of_not_changed hchanged]
    | true => rw [if_neg (by simp), persistTree, if_pos hchanged, saveTree]
  refine ⟨store, ?_, haccepts, hload⟩
  rw [← hsaves, persist, persistUser, login_persistDirectory, login_persistTree, persistDirectory,
    login_persistTree, htree]
  rfl

/-- Saving after a write leaves what saving before it and after it leaves. -/
theorem persist_write {context : Context σ} (haccepts : Accepts context.store)
    (hkeys : context.keys.all.Nodup) (before : Login) (redirect : Redirect) (outcome : Outcome) :
    let settled := context.persist before
    (settled.write redirect outcome).1 = (context.write redirect outcome).1 ∧
      ∃ files first second,
        (context.write redirect outcome).2.persist before =
            { context with files, store := first } ∧
          (settled.write redirect outcome).2.persistTree =
            { context with files, store := second } ∧
          values first = values second := by
  obtain ⟨store, hpersist, hstore, hload⟩ := exists_persist_eq context before haccepts
  rw [hpersist]
  intro settled
  let content := outcome.text?.getD ""
  have hlater :
      settled.files.edit (settled.resolve redirect.target) (.write content redirect.mode) =
        context.files.edit (context.resolve redirect.target) (.write content redirect.mode) :=
    FileSystem.edit_write_settled ..
  cases hedit : context.files.edit (context.resolve redirect.target)
      (.write content redirect.mode) with
  | error fault =>
    have hwrite : context.write redirect outcome = (some fault, context) := edit_of_error hedit
    have hwrite' : settled.write redirect outcome = (some fault, settled) :=
      edit_of_error (hlater.trans hedit)
    rw [hwrite, hwrite']
    refine ⟨rfl, context.files.settled, store, store, hpersist, ?_, rfl⟩
    exact if_neg (by simp [settled, FileSystem.settled])
  | ok files =>
    -- The tree after the write is saved last both ways, over the one before it if that was saved.
    have hwrite : context.write redirect outcome = (none, { context with files }) :=
      edit_of_ok hedit
    have hwrite' : settled.write redirect outcome = (none, { settled with files }) :=
      edit_of_ok (hlater.trans hedit)
    have hchanged := FileSystem.changed_of_edit_write hedit
    obtain ⟨first, hfirst, -, hload'⟩ :=
      exists_persist_eq { context with files } before haccepts
    obtain ⟨second, hsecond, -, htree, hothers⟩ :=
      exists_persistTree_eq { settled with files } hstore
    rw [hwrite, hwrite']
    refine ⟨rfl, files.settled, first, second, hfirst, hsecond, Session.values_ext fun key => ?_⟩
    obtain ⟨hdirectory, huser, -⟩ := StorageKeys.ne_of_nodup_all hkeys
    by_cases hkey : key = context.keys.tree
    · subst hkey
      rw [hload', htree hchanged]
      simp [hchanged, hdirectory.symm, huser.symm]
    · rw [hload', hothers key hkey, hload]
      simp [Ne.symm hkey]

end Context

/-! ## The command -/

/-- A store that goes on accepting does so whatever is saved or taken out. -/
theorem Storage.keeps_accepts {σ : Type} [Storage σ] [KeepingStorage σ] [LastingStorage σ] :
    Storage.Keeps (Accepts : σ → Prop) where
  save store key value h := by
    obtain ⟨after, hsave, haccepts, -⟩ := KeepingStorage.save_eq store key value h
    rwa [hsave]
  remove := LastingStorage.accepts_remove

namespace Context

variable {σ : Type} [Storage σ]

/-- A command is asked for, and it does not break. -/
def answers (now : Calendar.Moment) (context : Context σ) (command? : Option Command) : Bool :=
  command?.any fun command => (command.run now context).1.isOk

section
variable (context : Context σ) {name : String} {args : List String}

/-- A line with a redirection does what the line without it does, and then writes what it came to,
unless there is no such command or it breaks. -/
theorem answer_redirected (history : List String) (now later : Calendar.Moment)
    (redirect : Redirect) (hhistory : Command.parse? name args ≠ some .history)
    (hdate : Command.parse? name args ≠ some .date) :
    let plain := context.answer now ⟨name, args, none⟩
    (context.withHistory history).answer later ⟨name, args, some redirect⟩ =
      if context.answers now (Command.parse? name args) then
        (redirect.shown plain.1 (plain.2.write redirect plain.1).1,
          (plain.2.write redirect plain.1).2.withHistory history)
      else (plain.1, plain.2.withHistory history) := by
  intro plain
  cases hcommand : Command.parse? name args with
  | none =>
    simp only [plain, answer, hcommand, answers, Option.any_none]
    rfl
  | some command =>
    have hrun := Command.run_withHistory context history now later
      (fun h => hhistory (h ▸ hcommand)) (fun h => hdate (h ▸ hcommand))
    obtain ⟨result, after, hresult⟩ : ∃ result after, command.run now context = (result, after) :=
      ⟨_, _, rfl⟩
    rw [hresult] at hrun
    cases result with
    | error error =>
      have hplain : plain = (.text ("Error executing " ++ name ++ ": " ++ error.message),
          after.report (.warning "command failed")) := by
        simp only [plain, answer, hcommand, hresult]
      have hbreaks : context.answers now (some command) = false := by
        simp [answers, hresult, Except.isOk, Except.toBool]
      rw [hbreaks, if_neg Bool.false_ne_true, hplain]
      simp only [answer, hcommand, hrun]
      rfl
    | ok outcome =>
      have hplain : plain = (outcome, after) := by simp only [plain, answer, hcommand, hresult]
      have hanswers : context.answers now (some command) = true := by
        simp [answers, hresult, Except.isOk, Except.toBool]
      rw [hanswers, if_pos rfl, hplain]
      simp only [answer, hcommand, hrun, divert_eq, write_withHistory]

/-- Answering a line leaves a store that accepts, and the keys as they are. -/
theorem accepts_answer [KeepingStorage σ] [LastingStorage σ] (now : Calendar.Moment)
    (h : Accepts context.store) :
    Accepts (context.answer now ⟨name, args, none⟩).2.store ∧
      (context.answer now ⟨name, args, none⟩).2.keys = context.keys := by
  unfold answer
  split
  · exact ⟨h, rfl⟩
  · next command _ =>
    have hrun := Command.keeps_run Storage.keeps_accepts now context command h
    split <;> next hresult => rw [hresult] at hrun; exact hrun

/-- Answering a line leaves the history alone. -/
theorem history_answer (now : Calendar.Moment)
    (hhistory : Command.parse? name args ≠ some .history)
    (hdate : Command.parse? name args ≠ some .date) :
    (context.answer now ⟨name, args, none⟩).2.login.history = context.login.history := by
  unfold answer
  split
  · rfl
  · next command hcommand =>
    have hrun := Command.history_run context now
      (fun h => hhistory (h ▸ hcommand)) (fun h => hdate (h ▸ hcommand))
    split <;> next hresult => rw [hresult] at hrun; exact hrun

end

end Context

namespace Session

variable {σ : Type}

/-! ## Both ways -/

/-- Executes a line, and then writes what it came to, unless its command is not known or breaks. -/
def executeThenWrite [Storage σ] (now : Calendar.Moment) (session : Session σ) (input : String)
    (redirect : Redirect) : Outcome × Session σ :=
  let executed := session.execute now input
  if (session.record input).answers now (Line.command? input) then
    let written := executed.2.write redirect executed.1
    (redirect.shown executed.1 written.1,
      { executed.2 with toContext := written.2.persistTree })
  else executed

/-- Two sessions that differ in the history and in the form of the store at most. -/
structure Agrees [Storage σ] [KeepingStorage σ] (first second : Session σ) : Prop where
  files : first.files = second.files
  user : first.login.user = second.login.user
  directory : first.login.directory = second.login.directory
  environment : first.login.environment = second.login.environment
  request : first.request = second.request
  keys : first.keys = second.keys
  values_eq : values first.store = values second.store
  notices : first.notices = second.notices
  hostname : first.hostname = second.hostname

variable [Storage σ]

/-- A line that can be read is recorded and answered, and then what has changed is saved. -/
theorem execute_of_parse (now : Calendar.Moment) (session : Session σ) {input : String}
    {line : Line} (h : Line.parse input = .ok (some line)) :
    session.execute now input =
      (((session.record input).answer now line).1,
        ⟨((session.record input).answer now line).2.persist session.login, session.hostname⟩) := by
  have hblank : ¬ Text.isAllBlank input := by
    intro hblank
    have hnone := Line.parse_of_blank (by simpa [Text.isAllBlank] using hblank)
    rw [h] at hnone
    cases hnone
  rw [execute_of_not_blank now session hblank, Context.dispatch, h]

/-- A line that is another but for a redirection does what that line does, and then writes what it
came to, unless there is no such command or it breaks; what is saved is saved last. -/
theorem execute_of_parse_redirected (session : Session σ) (input : String) {line name : String}
    {args : List String} {redirect : Redirect} (now later : Calendar.Moment)
    (hline : Line.parse line = .ok (some ⟨name, args, some redirect⟩))
    (hhistory : Command.parse? name args ≠ some .history)
    (hdate : Command.parse? name args ≠ some .date) :
    let plain := (session.record input).answer now ⟨name, args, none⟩
    let written := plain.2.write redirect plain.1
    let history := session.login.history ++ [line]
    session.execute later line =
      if (session.record input).answers now (Command.parse? name args) then
        (redirect.shown plain.1 written.1,
          ⟨(written.2.persist session.login).withHistory history, session.hostname⟩)
      else
        (plain.1, ⟨(plain.2.persist session.login).withHistory history, session.hostname⟩) := by
  intro plain written history
  have hrecord : session.record line = (session.record input).withHistory history := rfl
  have hanswer := (session.record input).answer_redirected history now later redirect hhistory hdate
  rw [execute_of_parse later session hline, hrecord, hanswer]
  split
  · simp only [Context.persist_withHistory, plain, written]
  · simp only [Context.persist_withHistory, plain]

variable [KeepingStorage σ] [LastingStorage σ]

/-- **Redirection is the plain run followed by one write.** A line with a redirection at its end
comes to what the line without it comes to, followed by a write to the target, found where the
command has left the session; a line whose command is not known or breaks is not followed by one.
Afterwards the session is the same, but that its history has the longer line, and a store that keeps
what it is given holds the same texts. If there is no such command, nothing is done but to record
the line and to save a tree that had still to be saved. The keys that come of a stem are distinct
(`StorageKeys.nodup_all_ofStem`). -/
theorem execute_redirected (session : Session σ) (haccepts : Accepts session.store)
    (hkeys : session.keys.all.Nodup) {input : String} {name rest : List Char}
    (hinput : Line.FirstWord input name rest) (hrest : '>' ∉ rest) {redirect : Redirect}
    (hredirect : redirect.WellFormed) (hhistory : Line.command? input ≠ some .history)
    (hdate : Line.command? input ≠ some .date) (now later : Calendar.Moment) :
    let line := Line.redirected input redirect
    let redirected := session.execute later line
    let separate := session.executeThenWrite now input redirect
    redirected.1 = separate.1 ∧ redirected.2.Agrees separate.2 ∧
      redirected.2.login.history = session.login.history ++ [line] ∧
      separate.2.login.history = session.login.history ++ [input] ∧
      (Line.command? input = none →
        redirected.2.toContext = (session.record line).persistTree) := by
  intro line
  obtain ⟨args, hplain, hlonger⟩ := Line.exists_parse_redirected hinput hrest hredirect
  have hcommand : Line.command? input = Command.parse? (String.ofList name) args := by
    rw [Line.command?, hplain]
  rw [hcommand] at hhistory hdate
  have hexecute := execute_of_parse now session hplain
  have hexecute' :=
    session.execute_of_parse_redirected input now later hlonger hhistory hdate
  have hrecorded := (session.record input).history_answer now hhistory hdate
  have hunknown (hnone : Command.parse? (String.ofList name) args = none) :
      ((session.record input).answer now ⟨String.ofList name, args, none⟩).2 =
        session.record input := by
    simp only [Context.answer, hnone]
  obtain ⟨hstore, hsame⟩ :
      Accepts ((session.record input).answer now ⟨String.ofList name, args, none⟩).2.store ∧
        ((session.record input).answer now ⟨String.ofList name, args, none⟩).2.keys =
          session.keys := (session.record input).accepts_answer now haccepts
  simp only [executeThenWrite, hcommand, hexecute, line, hexecute']
  -- From here on nothing depends on what the command does.
  generalize (session.record input).answer now ⟨String.ofList name, args, none⟩ = plain at *
  split
  · next hanswers =>
    obtain ⟨hfault, files, first, second, hfirst, hsecond, hvalues⟩ :=
      Context.persist_write hstore (hsame ▸ hkeys) session.login redirect plain.1
    have hknown : Command.parse? (String.ofList name) args ≠ none := by
      intro hnone
      rw [hnone] at hanswers
      cases hanswers
    simp only [hfirst, hsecond, hfault]
    exact ⟨trivial, ⟨rfl, rfl, rfl, rfl, rfl, rfl, hvalues, rfl, rfl⟩, rfl, hrecorded,
      fun hnone => absurd hnone hknown⟩
  · refine ⟨rfl, ⟨rfl, rfl, rfl, rfl, rfl, rfl, rfl, rfl, rfl⟩, rfl, ?_, fun hnone => ?_⟩
    · obtain ⟨store, notices, hpersist⟩ := plain.2.persist_eq session.login
      rw [hpersist]
      exact hrecorded
    · rw [hunknown hnone, ← Context.persist_withHistory]
      exact Context.persist_of_same_login _ rfl rfl

/-- What the command prints is added to what an earlier line has left in the target, whose name goes
on to the line's end. -/
theorem execute_redirected_of_whoami :
    let begun := start (Settings.forUser "user") (MemoryStore.mk ∅)
    let session := (begun.execute ⟨0, 0⟩ "pwd >> a>b").2
    let redirected := session.execute ⟨0, 0⟩ "whoami >> a>b"
    let separate := session.executeThenWrite ⟨0, 0⟩ "whoami" ⟨"a>b", .append⟩
    redirected.1 = separate.1 ∧ redirected.2.Agrees separate.2 ∧
      redirected.2.login.history = session.login.history ++ ["whoami >> a>b"] ∧
      separate.2.login.history = session.login.history ++ ["whoami"] ∧
      (redirected.2.files.read "/home/user/a>b").toOption = some "/home/useruser" := by
  intro begun session
  have hread : ((session.execute ⟨0, 0⟩ "whoami >> a>b").2.files.read
      "/home/user/a>b").toOption = some "/home/useruser" := by decide +kernel
  have hkeys : session.keys.all.Nodup := by decide +kernel
  have hinput : Line.FirstWord "whoami" ['w', 'h', 'o', 'a', 'm', 'i'] [] :=
    ⟨by decide, ⟨[], nofun, rfl⟩, nofun⟩
  have hredirect : Redirect.WellFormed ⟨"a>b", .append⟩ :=
    ⟨by decide, ⟨by rintro c ⟨⟩; rfl, by rintro c ⟨⟩; rfl⟩, by decide⟩
  have hline : Line.redirected "whoami" ⟨"a>b", .append⟩ = "whoami >> a>b" := by decide +kernel
  clear_value session
  have hboth := execute_redirected session trivial hkeys hinput (by decide) hredirect
    (by decide +kernel) (by decide +kernel) ⟨0, 0⟩ ⟨0, 0⟩
  rw [hline] at hboth
  obtain ⟨houtcome, hagrees, hredirected, hseparate, -⟩ := hboth
  exact ⟨houtcome, hagrees, hredirected, hseparate, hread⟩

end Session

end PocketShell
