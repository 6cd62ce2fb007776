import PocketShell.Editor.Basic
import PocketShell.Session.Basic

/-!
# Editing in a session

An editor opened for a session has its texts saved into the session's tree. `Session.heed` does what
a signal of the editor asks for; `Session.type` lets the editor take keys and heeds its signals.
-/

namespace PocketShell

namespace Session

variable {σ : Type}

/-- The editor for a request. -/
def editorFor (request : EditRequest) : Editor :=
  .start request.path request.content

/-- Does what a signal of the editor asks for, and answers the fault if a text cannot be saved. -/
def heed [Storage σ] (session : Session σ) : Editor.Signal → Option Fault × Session σ
  | .save file content => session.saveFile file content
  | .exit => (none, session)

/-- Does what signals ask for, one after another. -/
def heedAll [Storage σ] (session : Session σ) :
    List Editor.Signal → List (Option Fault) × Session σ
  | [] => ([], session)
  | signal :: signals =>
    let heeded := session.heed signal
    let others := heeded.2.heedAll signals
    (heeded.1 :: others.1, others.2)

/-- Lets the editor take keys, and saves what it wants saved. -/
def type [Storage σ] (session : Session σ) (editor : Editor) (keys : List Key) :
    Editor × Session σ :=
  let pressed := editor.pressAll keys
  (pressed.2, (session.heedAll pressed.1).2)

end Session

end PocketShell
