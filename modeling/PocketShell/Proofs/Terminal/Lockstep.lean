import PocketShell.Proofs.Session.Refusal
import PocketShell.Terminal.Program

/-!
# Terminals in lockstep

All that a terminal wants of its session is a call. So terminals whose sessions show the same and
answer every call alike (`Session.Lockstep`) print the same for whatever arrives and end with the
same exit code. Main statement: `Terminal.Related.run`.
-/

namespace PocketShell

variable {σ τ : Type}

/-! ## Sessions -/

namespace Session

variable [Storage σ] [Storage τ] {R : Session σ → Session τ → Prop}

/-- Related sessions show the same and answer every call alike, and are related after it. -/
structure Lockstep (R : Session σ → Session τ → Prop) : Prop where
  view_eq {first : Session σ} {second : Session τ} : R first second → first.view = second.view
  call {first : Session σ} {second : Session τ} : R first second → ∀ call : Call,
    (first.call call).1 = (second.call call).1 ∧ R (first.call call).2 (second.call call).2

namespace Lockstep

variable {first : Session σ} {second : Session τ} (hR : Lockstep R) (h : R first second)
include hR h

/-- Related sessions show the same prompt. -/
theorem prompt_eq : first.prompt = second.prompt :=
  congrArg View.prompt (hR.view_eq h)

/-- Related sessions offer the same completions. -/
theorem completion_eq (input : String) : first.completion input = second.completion input :=
  Reply.completion.inj (hR.call h (.complete input)).1

/-- Related sessions answer a line alike and stay related. -/
theorem execute (now : Calendar.Moment) (line : String) :
    (first.execute now line).1 = (second.execute now line).1 ∧
      R (first.execute now line).2 (second.execute now line).2 := by
  obtain ⟨hreply, hafter⟩ := hR.call h (.execute now line)
  rw [call_execute_snd, call_execute_snd] at hafter
  exact ⟨Reply.outcome.inj hreply, hafter⟩

/-- Related sessions hand over the same request for the editor. -/
theorem takeRequest :
    first.takeRequest.1 = second.takeRequest.1 ∧ R first.takeRequest.2 second.takeRequest.2 := by
  obtain ⟨hreply, hafter⟩ := hR.call h .takeRequest
  rw [call_takeRequest_snd, call_takeRequest_snd] at hafter
  exact ⟨Reply.request.inj hreply, hafter⟩

/-- Related sessions stay so when both heed a signal of the editor. -/
theorem heed (signal : Editor.Signal) : R (first.heed signal).2 (second.heed signal).2 := by
  cases signal with
  | save file content =>
    have hafter := (hR.call h (.saveFile file content)).2
    rw [call_saveFile_snd, call_saveFile_snd] at hafter
    exact hafter
  | exit => exact h

omit h in
/-- Related sessions stay so when both heed the same signals one after another. -/
theorem heedAll (signals : List Editor.Signal) {first : Session σ} {second : Session τ}
    (h : R first second) : R (first.heedAll signals).2 (second.heedAll signals).2 := by
  induction signals generalizing first second with
  | nil => exact h
  | cons signal signals ih => exact ih (hR.heed h signal)

end Lockstep

end Session

/-! ## Terminals -/

namespace Terminal

/-- Two terminals whose sessions are related and which have the same editor open, if any. -/
structure Related (R : Session σ → Session τ → Prop) (first : Terminal σ) (second : Terminal τ) :
    Prop where
  session : R first.session second.session
  editor : first.editor = second.editor
  single : first.single = second.single

/-- The same is shown, and the terminals are related after it. -/
def ShowAlike (R : Session σ → Session τ → Prop) (first : String × Terminal σ)
    (second : String × Terminal τ) : Prop :=
  first.1 = second.1 ∧ first.2.Related R second.2

variable {R : Session σ → Session τ → Prop} {first : Terminal σ} {second : Terminal τ}

/-- Related terminals are done at the same time. -/
theorem Related.isDone_eq (h : first.Related R second) : first.isDone = second.isDone := by
  rw [isDone, isDone, h.editor, h.single]

namespace Related

variable [Storage σ] [Storage τ] (hR : Session.Lockstep R)
include hR

section
variable (h : first.Related R second)
include h

/-- Related terminals show the same before they take something. -/
theorem display_eq : first.display = second.display := by
  rw [display, display, h.editor, shownPrompt, shownPrompt, hR.prompt_eq h.session]

/-- Related terminals show the same at the end of the input. -/
theorem farewell_eq : first.farewell = second.farewell := by
  rw [farewell, farewell, h.editor, h.single, shownPrompt, shownPrompt, hR.prompt_eq h.session]

/-- Related terminals show an outcome alike and open the same editor for it. -/
theorem respond (outcome : Outcome) :
    ShowAlike R (first.respond outcome) (second.respond outcome) := by
  obtain ⟨hrequest, hafter⟩ := hR.takeRequest h.session
  unfold Terminal.respond
  split
  · generalize first.session.takeRequest = taken, second.session.takeRequest = taken'
      at hrequest hafter ⊢
    obtain ⟨request?, session⟩ := taken
    obtain ⟨request?', session'⟩ := taken'
    obtain rfl : request? = request?' := hrequest
    cases request? with
    | none => exact ⟨rfl, hafter, h.editor, h.single⟩
    | some request => exact ⟨rfl, hafter, rfl, h.single⟩
  · exact ⟨rfl, h⟩

/-- Related terminals execute a line alike. -/
theorem execute (now : Calendar.Moment) (line : String) :
    ShowAlike R (first.execute now line) (second.execute now line) := by
  obtain ⟨houtcome, hafter⟩ := hR.execute h.session now line
  have hexecuted : Related R { first with session := (first.session.execute now line).2 }
      { second with session := (second.session.execute now line).2 } :=
    ⟨hafter, h.editor, h.single⟩
  rw [Terminal.execute, Terminal.execute, houtcome]
  exact hexecuted.respond hR _

/-- Related terminals take the keys of an open editor alike: the editor is the same and sends both
sessions the same signals. -/
theorem type (editor : Editor) (keys : List Key) :
    (first.type editor keys).Related R (second.type editor keys) :=
  ⟨hR.heedAll _ h.session, rfl, h.single⟩

/-- Related terminals are fed a line alike, whether it is completed, goes to the editor or is
executed. -/
theorem feed (now : Calendar.Moment) (line : String) :
    ShowAlike R (first.feed now line) (second.feed now line) := by
  rw [Terminal.feed, Terminal.feed, h.editor]
  split
  · exact ⟨rfl, h.type hR _ _⟩
  · split
    · exact ⟨by rw [hR.completion_eq h.session], h⟩
    · exact h.execute hR now line

/-- Related terminals take whatever arrives alike, and with the same exit code. -/
theorem take (now : Calendar.Moment) (input : Input) :
    (first.take now input).1 = (second.take now input).1 ∧
      (first.take now input).2.1.Related R (second.take now input).2.1 ∧
      (first.take now input).2.2 = (second.take now input).2.2 := by
  cases input with
  | line text =>
    obtain ⟨hshown, hafter⟩ := h.feed hR now text
    exact ⟨hshown, hafter, by rw [Terminal.take, Terminal.take, hafter.isDone_eq]⟩
  | invalid => exact ⟨rfl, h, rfl⟩
  | ended => exact ⟨h.farewell_eq hR, h, rfl⟩

end

/-- **Terminals in lockstep print the same and end alike.** -/
theorem run (inputs : List Input) (clock : Calendar.Clock) {first : Terminal σ}
    {second : Terminal τ} (h : first.Related R second) :
    (first.run clock inputs).1 = (second.run clock inputs).1 ∧
      (first.run clock inputs).2.1.Related R (second.run clock inputs).2.1 ∧
      (first.run clock inputs).2.2 = (second.run clock inputs).2.2 := by
  induction inputs generalizing clock first second with
  | nil => exact ⟨rfl, h, rfl⟩
  | cons input inputs ih =>
    rw [Terminal.run, Terminal.run, h.isDone_eq, h.display_eq hR]
    split
    · exact ⟨rfl, h, rfl⟩
    · obtain ⟨hshown, hafter, hcode⟩ := h.take hR clock.now input
      generalize first.take clock.now input = taken, second.take clock.now input = taken'
        at hshown hafter hcode ⊢
      obtain ⟨text, terminal, code?⟩ := taken
      obtain ⟨text', terminal', code?'⟩ := taken'
      obtain rfl : text = text' := hshown
      obtain rfl : code? = code?' := hcode
      cases code? with
      | none =>
        obtain ⟨hothers, hlast, hcode⟩ := ih clock.later hafter
        exact ⟨congrArg (_ ++ ·) hothers, hlast, hcode⟩
      | some code => exact ⟨rfl, hafter, rfl⟩

end Related

/-- A terminal begins in lockstep if its session does. -/
theorem related_start [Storage σ] [Storage τ] (hR : Session.Lockstep R) (now : Calendar.Moment)
    {first : Session σ} {second : Session τ} (h : R first second) (command : Option String) :
    ShowAlike R (start now first command) (start now second command) := by
  cases command with
  | none => exact ⟨rfl, h, rfl, rfl⟩
  | some line =>
    have hbegun : Related R ⟨first, none, true⟩ ⟨second, none, true⟩ := ⟨h, rfl, rfl⟩
    exact hbegun.execute hR now line

end Terminal

end PocketShell
