import PocketShell.Editor.Call
import PocketShell.Session.Call
import PocketShell.Session.Editing

/-!
# Turns

While an editor is open its session can still be asked for things. `Editing` is a session with an
editor that has its texts saved there; the two take turns, in any order, and every text that a turn
of the editor wants saved is saved in that turn. Main statement: `Editing.takeAll_press`, keys that
are typed without anything between them are turns one after another.
-/

namespace PocketShell

/-- Something that is asked of a session or of its editor. -/
inductive Turn where
  | call (call : Session.Call)
  | edit (call : Editor.Call)

/-- A session, and an editor that has its texts saved there. -/
structure Editing (σ : Type) where
  session : Session σ
  editor : Editor

namespace Session

variable {σ : Type} [Storage σ] (session : Session σ)

@[simp] theorem heedAll_nil_snd : (session.heedAll []).2 = session := by
  rw [heedAll]

@[simp] theorem heedAll_exit_snd (signals : List Editor.Signal) :
    (session.heedAll (.exit :: signals)).2 = (session.heedAll signals).2 := by
  rw [heedAll, heed]

@[simp] theorem heedAll_save_snd (file content : String) (signals : List Editor.Signal) :
    (session.heedAll (.save file content :: signals)).2 =
      ((session.saveFile file content).2.heedAll signals).2 := by
  rw [heedAll, heed]

/-- Signals may be heeded in two parts. -/
theorem heedAll_append_snd (first second : List Editor.Signal) :
    (session.heedAll (first ++ second)).2 = ((session.heedAll first).2.heedAll second).2 := by
  induction first generalizing session with
  | nil => rfl
  | cons signal first ih => exact ih _

end Session

namespace Editing

variable {σ : Type} [Storage σ]

/-- What a turn leaves. -/
def take (editing : Editing σ) : Turn → Editing σ
  | .call call => { editing with session := (editing.session.call call).2 }
  | .edit call =>
    let called := editing.editor.call call
    { session := (editing.session.heedAll called.1).2, editor := called.2 }

@[simp] theorem session_take_call (editing : Editing σ) (call : Session.Call) :
    (editing.take (.call call)).session = (editing.session.call call).2 := by
  rw [take]

@[simp] theorem editor_take_call (editing : Editing σ) (call : Session.Call) :
    (editing.take (.call call)).editor = editing.editor := by
  rw [take]

@[simp] theorem session_take_edit (editing : Editing σ) (call : Editor.Call) :
    (editing.take (.edit call)).session =
      (editing.session.heedAll (editing.editor.call call).1).2 := by
  rw [take]

@[simp] theorem editor_take_edit (editing : Editing σ) (call : Editor.Call) :
    (editing.take (.edit call)).editor = (editing.editor.call call).2 := by
  rw [take]

/-- What turns leave, one after another. -/
def takeAll (editing : Editing σ) : List Turn → Editing σ
  | [] => editing
  | turn :: turns => (editing.take turn).takeAll turns

/-- What every turn keeps is kept. -/
theorem takeAll_induction (p : Editing σ → Prop) {editing : Editing σ} {turns : List Turn}
    (hturn : ∀ editing : Editing σ, ∀ turn ∈ turns, p editing → p (editing.take turn))
    (h : p editing) : p (editing.takeAll turns) := by
  induction turns generalizing editing with
  | nil => exact h
  | cons turn turns ih =>
    exact ih (fun editing next hnext => hturn editing next (.tail _ hnext))
      (hturn editing turn (.head _) h)

/-- Keys that are typed one after another are turns of the editor. -/
theorem takeAll_press (session : Session σ) (editor : Editor) (keys : List Key) :
    (Editing.mk session editor).takeAll (keys.map fun key => .edit (.press key)) =
      ⟨(session.type editor keys).2, (session.type editor keys).1⟩ := by
  induction keys generalizing session editor with
  | nil => rfl
  | cons key keys ih =>
    rw [List.map_cons, takeAll, take, ih, Session.type, Session.type, Editor.pressAll,
      Session.heedAll_append_snd]
    rfl

end Editing

end PocketShell
