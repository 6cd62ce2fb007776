import PocketShell.Session.Basic

/-!
# Calls

What a host asks of a session, one call after another. `Session.call` answers a call, and
`Session.after` is the session after a sequence of them.
-/

namespace PocketShell

namespace Session

variable {σ : Type} [Storage σ]

/-- Something that a host asks of a session. -/
inductive Call where
  /-- Execute a line, at a moment. -/
  | execute (now : Calendar.Moment) (line : String)
  /-- Give a file a content. -/
  | saveFile (path content : String)
  /-- Complete the last word of a line. -/
  | complete (input : String)
  /-- Hand over the request for the editor. -/
  | takeRequest

/-- What a session answers. -/
inductive Reply where
  | outcome (value : Outcome)
  | saved (fault : Option Fault)
  | completion (value : Completion)
  | request (value : Option EditRequest)

/-- Answers a call. -/
def call (session : Session σ) : Call → Reply × Session σ
  | .execute now line =>
    let executed := session.execute now line
    (.outcome executed.1, executed.2)
  | .saveFile path content =>
    let saved := session.saveFile path content
    (.saved saved.1, saved.2)
  | .complete input => (.completion (session.completion input), session)
  | .takeRequest =>
    let taken := session.takeRequest
    (.request taken.1, taken.2)

@[simp] theorem call_execute_snd (session : Session σ) (now : Calendar.Moment) (line : String) :
    (session.call (.execute now line)).2 = (session.execute now line).2 := by
  rw [call]

@[simp] theorem call_saveFile_snd (session : Session σ) (path content : String) :
    (session.call (.saveFile path content)).2 = (session.saveFile path content).2 := by
  rw [call]

@[simp] theorem call_complete_snd (session : Session σ) (input : String) :
    (session.call (.complete input)).2 = session := by
  rw [call]

@[simp] theorem call_takeRequest_snd (session : Session σ) :
    (session.call .takeRequest).2 = session.takeRequest.2 := by
  rw [call]

/-- The session after some calls. -/
def after (session : Session σ) : List Call → Session σ
  | [] => session
  | call :: calls => (session.call call).2.after calls

/-- What every call keeps is kept. -/
theorem after_induction (p : Session σ → Prop) {session : Session σ} {calls : List Call}
    (hcall : ∀ session : Session σ, ∀ call ∈ calls, p session → p (session.call call).2)
    (hsession : p session) : p (session.after calls) := by
  induction calls generalizing session with
  | nil => exact hsession
  | cons call calls ih =>
    exact ih (fun session next hnext => hcall session next (.tail _ hnext))
      (hcall session call (.head _) hsession)

end Session

end PocketShell
