import PocketShell.Proofs.Session.Reset

/-!
# Resets that fail

A confirmed `reset` takes the texts of a session out of the store one after another, and stops at
the first that the store does not give up. The texts before it are gone by then
(`Command.givenUp`), and nothing brings them back; the session itself is left alone. Main statement:
`Session.unchanged_of_failed_reset_iff`, when the store is left as it was as well.
-/

namespace PocketShell

open KeepingStorage (values)

/-- What a line came to says that its command broke. -/
def Line.Breaks (line : Line) (outcome : Outcome) : Prop :=
  ∃ reason, outcome = .text ("Error executing " ++ line.name ++ ": " ++ reason)

/-- A text that does not begin as an error does is none. -/
theorem Line.not_breaks_of_head? {line : Line} {text : String}
    (h : text.toList.head? ≠ some 'E') : ¬ line.Breaks (.text text) := by
  rintro ⟨reason, heq⟩
  cases heq
  exact h (by simp)

variable {σ : Type} [Storage σ]

/-! ## Taking texts out -/

namespace Command

/-- The keys whose texts are taken out of a store before the first that it does not give up. -/
def givenUp : List String → σ → List String
  | [], _ => []
  | key :: keys, store =>
    match Storage.remove store key with
    | (.ok (), store) => key :: givenUp keys store
    | (.error _, _) => []

variable [KeepingStorage σ] [SteadyStorage σ]

/-- What is taken out up to the first refusal is gone, and all else is there. -/
theorem getElem?_values_removeAll (keys : List String) (store : σ) (key : String) :
    (values (removeAll keys store).2)[key]? =
      if key ∈ givenUp keys store then none else (values store)[key]? := by
  induction keys generalizing store with
  | nil => simp [removeAll, givenUp]
  | cons first keys ih =>
    have hvalues := SteadyStorage.values_remove store first
    rw [removeAll, givenUp]
    generalize Storage.remove store first = removed at hvalues ⊢
    obtain ⟨_ | _, after⟩ := removed
    · simp [hvalues]
    · simp only [ih, hvalues, Std.ExtTreeMap.getElem?_erase, List.mem_cons]
      grind

/-- The store is left as it was if there was nothing to be taken out before the first refusal. -/
theorem values_removeAll_eq_iff (keys : List String) (store : σ) :
    values (removeAll keys store).2 = values store ↔
      ∀ key ∈ givenUp keys store, Storage.load store key = none := by
  constructor
  · intro hsame key hkey
    have hgone := getElem?_values_removeAll keys store key
    rwa [hsame, if_pos hkey, ← KeepingStorage.load_eq] at hgone
  · intro hnone
    refine Std.ExtTreeMap.ext_getElem? fun key => ?_
    rw [getElem?_values_removeAll]
    split
    · next hkey => rw [← hnone key hkey, KeepingStorage.load_eq]
    · rfl

end Command

/-! ## The line -/

/-- A reset that breaks takes out of the store what it can, and does nothing else but report. -/
theorem Context.answer_snd_of_breaks (context : Context σ) (now : Calendar.Moment) {line : Line}
    (hreset : Command.parse? line.name line.args = some (.reset true))
    (hbreaks : line.Breaks (context.answer now line).1) :
    (context.answer now line).2 =
      { context with store := (Command.removeAll context.keys.all context.store).2 }.report
        (.warning "command failed") := by
  unfold answer at hbreaks ⊢
  simp only [hreset, Command.run, Command.forget] at hbreaks ⊢
  generalize Command.removeAll context.keys.all context.store = removed at hbreaks ⊢
  obtain ⟨_ | _, store⟩ := removed
  · rfl
  · -- All is taken out, so whatever the output says it is no report of an error.
    exfalso
    cases hredirect : line.redirect with
    | none =>
      simp only [hredirect] at hbreaks
      exact Line.not_breaks_of_head? (by decide) hbreaks
    | some redirect =>
      simp only [hredirect, divert_eq, Redirect.shown] at hbreaks
      split at hbreaks
      · exact Line.not_breaks_of_head? (by simp) hbreaks
      · exact Line.not_breaks_of_head? (by decide) hbreaks

namespace Session

/-- A confirmed `reset` that breaks records its line, takes out the texts that the store gives up,
and changes nothing else; no change of the tree waits to be saved. -/
theorem execute_of_breaks {session : Session σ} (hsettled : session.files.changed = false)
    (now : Calendar.Moment) {input : String} {line : Line}
    (hline : Line.parse input = .ok (some line))
    (hreset : Command.parse? line.name line.args = some (.reset true))
    (hbreaks : line.Breaks (session.execute now input).1) :
    (session.execute now input).2.toContext =
      { session.record input with
        store := (Command.removeAll session.keys.all session.store).2 }.report
          (.warning "command failed") := by
  rw [execute_of_parse now session hline] at hbreaks ⊢
  have hanswer := (session.record input).answer_snd_of_breaks now hreset hbreaks
  simp only [hanswer]
  exact Context.persist_eq_self _ rfl rfl hsettled

/-- The session has come about by calls, and stands on any store. -/
def Reached (session : Session σ) : Prop :=
  ∃ (settings : Settings) (earlier : σ) (calls : List Call) (store : σ),
    session = { (start settings earlier).after calls with store }

/-- A session that has just started has come about by calls, by none. -/
theorem reached_start (settings : Settings) (store : σ) : (start settings store).Reached :=
  ⟨settings, store, [], (start settings store).store, rfl⟩

/-- Between two calls no change of the tree waits to be saved. -/
theorem Reached.settled {session : Session σ} (h : session.Reached) :
    session.files.changed = false := by
  obtain ⟨settings, earlier, calls, store, rfl⟩ := h
  exact changed_after settings earlier calls

/-- **When a failing reset changes nothing.** A confirmed `reset` that reports an error leaves the
tree, the current directory, the environment and the user as they were; and it leaves the store as it
was if there was no text under any of the keys before the one that the store does not give up, and
only then. -/
theorem unchanged_of_failed_reset_iff [KeepingStorage σ] [SteadyStorage σ] {session : Session σ}
    (hsession : session.Reached) (now : Calendar.Moment) {input : String} {line : Line}
    (hline : Line.parse input = .ok (some line)) (hname : line.name = "reset")
    (hflag : line.args.head? = some "-f" ∨ line.args.head? = some "--filesystem") :
    let executed := session.execute now input
    line.Breaks executed.1 →
      (executed.2.files.root = session.files.root ∧
        executed.2.login.directory = session.login.directory ∧
        executed.2.login.environment = session.login.environment ∧
        executed.2.login.user = session.login.user) ∧
      (values executed.2.store = values session.store ↔
        ∀ key ∈ Command.givenUp session.keys.all session.store,
          Storage.load session.store key = none) := by
  intro executed hbreaks
  have hreset : Command.parse? line.name line.args = some (.reset true) := by
    rw [hname]
    exact Command.parse?_reset hflag
  -- Nothing but the store and the record of the line is another, so the removals decide.
  have hafter := execute_of_breaks hsession.settled now hline hreset hbreaks
  refine ⟨?_, ?_⟩
  · rw [hafter]
    exact ⟨rfl, rfl, rfl, rfl⟩
  · have hstore : executed.2.store = (Command.removeAll session.keys.all session.store).2 := by
      rw [hafter]
      rfl
    rw [hstore]
    exact Command.values_removeAll_eq_iff _ _

/-- A store that gives up nothing at all. -/
theorem unchanged_of_reset_unavailable :
    let line : Line := ⟨"reset", ["-f"], none⟩
    let refusals : Refusals := { Refusals.none with remove _ _ := some .unavailable }
    let session := start (Settings.forUser "user") ({ refusals } : RefusingStore)
    let executed := session.execute ⟨0, 0⟩ "reset -f"
    session.Reached ∧ Line.parse "reset -f" = .ok (some line) ∧ line.Breaks executed.1 ∧
      executed.2.files.root = session.files.root ∧
      values executed.2.store = values session.store := by
  intro line refusals session executed
  have hsession : session.Reached := reached_start _ _
  have hline : Line.parse "reset -f" = .ok (some line) := by decide +kernel
  have hbreaks : line.Breaks executed.1 := ⟨"storage not available", by decide +kernel⟩
  have hnothing : ∀ key ∈ Command.givenUp session.keys.all session.store,
      Storage.load session.store key = none := nofun
  obtain ⟨⟨hroot, -⟩, hstore⟩ :=
    unchanged_of_failed_reset_iff hsession ⟨0, 0⟩ hline rfl (.inl rfl) hbreaks
  exact ⟨hsession, hline, hbreaks, hroot, hstore.mpr hnothing⟩

/-- A store that gives up the tree and then not the directory. -/
theorem values_ne_of_failed_reset :
    let line : Line := ⟨"reset", ["-f"], none⟩
    let refusals : Refusals :=
      { Refusals.none with
        remove _ key := if key = "ripline_current_path" then some (.remove key "quota") else none }
    let session := start (Settings.forUser "user") ({ refusals } : RefusingStore)
    let executed := session.execute ⟨0, 0⟩ "reset -f"
    Line.parse "reset -f" = .ok (some line) ∧ line.Breaks executed.1 ∧
      values executed.2.store ≠ values session.store := by
  intro line refusals session executed
  have hline : Line.parse "reset -f" = .ok (some line) := by decide +kernel
  have hbreaks : line.Breaks executed.1 :=
    ⟨"failed to remove ripline_current_path: quota", by decide +kernel⟩
  obtain ⟨hthere, hgone⟩ : (values session.store)["ripline_filesystem"]?.isSome ∧
      (values executed.2.store)["ripline_filesystem"]? = none := by decide +kernel
  refine ⟨hline, hbreaks, fun hsame => ?_⟩
  rw [← hsame, hgone] at hthere
  cases hthere

end Session

end PocketShell
