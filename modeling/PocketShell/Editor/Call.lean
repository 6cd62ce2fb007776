import PocketShell.Editor.Basic

/-!
# Calls of an editor

What a host asks of an editor, one call after another: that it takes a key, or that it has its text
saved. `Editor.callAll` answers a sequence of calls; `Editor.savedTexts` are the texts that its
signals ask to be saved.
-/

namespace PocketShell

namespace Editor

/-- Something that a host asks of an editor. -/
inductive Call where
  /-- Take a key. -/
  | press (key : Key)
  /-- Have the text saved. -/
  | save
  deriving DecidableEq, Repr

/-- What a call comes to. -/
def call (editor : Editor) : Call → List Signal × Editor
  | .press key => editor.press key
  | .save => editor.save

/-- What calls come to, one after another. -/
def callAll (editor : Editor) : List Call → List Signal × Editor
  | [] => ([], editor)
  | call :: calls =>
    let called := editor.call call
    let others := called.2.callAll calls
    (called.1 ++ others.1, others.2)

/-- The text that a signal asks to be saved. -/
def Signal.text? : Signal → Option String
  | save _ content => some content
  | exit => none

/-- The texts that signals ask to be saved, in order. -/
def savedTexts (signals : List Signal) : List String :=
  signals.filterMap Signal.text?

/-- The text saved last, or the one that the editor was opened with if none was saved. -/
def lastText (opened : String) (signals : List Signal) : String :=
  (savedTexts signals).getLast?.getD opened

/-! ## Runs -/

/-- What later calls come to is what they come to after the earlier ones. -/
theorem callAll_append (editor : Editor) (first second : List Call) :
    editor.callAll (first ++ second) =
      ((editor.callAll first).1 ++ ((editor.callAll first).2.callAll second).1,
        ((editor.callAll first).2.callAll second).2) := by
  induction first generalizing editor with
  | nil => rfl
  | cons call first ih => simp [callAll, ih]

/-- To press keys is to call for each of them. -/
theorem pressAll_eq_callAll (editor : Editor) (keys : List Key) :
    editor.pressAll keys = editor.callAll (keys.map .press) := by
  induction keys generalizing editor with
  | nil => rfl
  | cons key keys ih =>
    rw [pressAll, ih]
    rfl

/-- What every call keeps, of the signals so far and the editor, is kept. -/
theorem callAll_induction (p : List Signal → Editor → Prop)
    (hcall : ∀ earlier editor call, p earlier editor →
      p (earlier ++ (editor.call call).1) (editor.call call).2)
    {earlier : List Signal} {editor : Editor} (h : p earlier editor) (calls : List Call) :
    p (earlier ++ (editor.callAll calls).1) (editor.callAll calls).2 := by
  induction calls generalizing earlier editor with
  | nil => simpa [callAll] using h
  | cons call calls ih =>
    have hrest := ih (hcall earlier editor call h)
    rwa [List.append_assoc] at hrest

end Editor

end PocketShell
