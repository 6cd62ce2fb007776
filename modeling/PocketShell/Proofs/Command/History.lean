import PocketShell.Proofs.Command.Indiscernible

/-!
# What commands make of the history

A line is recorded before its command runs, but only `history` reads what is recorded, and only
`date` reads the moment. Main statement: `Command.run_withHistory`, with another history and at
another moment any other command comes to the same and leaves the same context, but for the history.
-/

namespace PocketShell

namespace Context

variable {σ : Type}

/-- The context with another history. -/
def withHistory (context : Context σ) (history : List String) : Context σ :=
  { context with login := context.login.withHistory history }

variable [Storage σ] (context : Context σ) (history : List String)

/-- What is saved, and whether the store accepts it, does not depend on the history. -/
theorem save_withHistory (key written : String) :
    (context.withHistory history).save key written =
      (context.save key written).withHistory history := by
  have hstore : (context.withHistory history).store = context.store := rfl
  rw [save, save, hstore]
  split <;> rfl

/-- A context and the same with another history. -/
theorem indiscernible_withHistory :
    Indiscernible fun first second : Context σ => second = first.withHistory history where
  files h := by rw [h]; rfl
  login h := by rw [h]; rfl
  keys h := by rw [h]; rfl
  withFiles h files := by rw [h]; rfl
  withLogin h login _ := by rw [h]; rfl
  ask h request := by rw [h]; rfl
  report h notice := by rw [h]; rfl
  save h key _ written := by rw [h, save_withHistory]

/-- An edit has the same answer and the same effect whatever the history is, and leaves it alone. -/
theorem edit_withHistory (path : String) (edit : Edit) :
    (context.withHistory history).edit path edit =
      ((context.edit path edit).1, (context.edit path edit).2.withHistory history) := by
  have hsame : context.withHistory history = context.withHistory history := rfl
  obtain ⟨hfault, hafter⟩ :=
    (indiscernible_withHistory history).answersAlike_edit hsame path edit
  generalize context.edit path edit = edited at hfault hafter ⊢
  exact Prod.ext hfault.symm hafter

/-- What persisting saves does not depend on the history: no key holds it. -/
theorem persist_withHistory (before : Login) :
    (context.withHistory history).persist before =
      (context.persist before).withHistory history :=
  related_persist (indiscernible_withHistory history) rfl rfl rfl

end Context

namespace Command

open Context

variable {σ : Type} [Storage σ] (context : Context σ) (history : List String)

/-- **Only `history` reads the history, and only `date` the moment.** Any other command comes to the
same with another history and at another moment. -/
theorem run_withHistory (now later : Calendar.Moment) {command : Command}
    (hhistory : command ≠ .history) (hdate : command ≠ .date) :
    run later (context.withHistory history) command =
      ((run now context command).1, (run now context command).2.withHistory history) := by
  have hsame : context.withHistory history = context.withHistory history := rfl
  obtain ⟨hresult, hafter⟩ := answersAlike_run (indiscernible_withHistory history) hsame now later
    (fun h => absurd h hhistory) (fun h => absurd h hdate)
    fun _ => answersAlike_forget (indiscernible_withHistory history) hsame rfl fun _ => rfl
  exact Prod.ext hresult.symm hafter

/-- No command changes the history. The two commands excluded here show a text without any change;
for the others a run on the context with its own history is compared with itself
(`Indiscernible.answersAlike_run`). -/
theorem history_run (now : Calendar.Moment) {command : Command}
    (hhistory : command ≠ .history) (hdate : command ≠ .date) :
    (run now context command).2.login.history = context.login.history := by
  -- The context is itself with the history that it has.
  have hsame := run_withHistory context context.login.history now now hhistory hdate
  exact congrArg (·.2.login.history) hsame

end Command

end PocketShell
