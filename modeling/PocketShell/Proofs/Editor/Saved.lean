import PocketShell.Named
import PocketShell.Proofs.Editor.Act

/-!
# No change is forgotten

An editor without the mark of change holds the text that was saved last, or the one that it was
opened with if none was saved (`Editor.Kept`). Every call keeps this; `:q` closes the editor only
without the mark, and `:wq` and `:x` save first, so only `:q!` closes it on another text. Main
statement: `Editor.content_eq_lastText`.
-/

namespace PocketShell

/-- Splitting a text at its line feeds and joining the lines gives the text again. -/
theorem Buffer.content_ofContent (content : String) : (ofContent content).content = content := by
  have hlines : (ofContent content).lines = content.toList.splitOn '\n' := by
    unfold ofContent
    split
    · next hsplit => exact absurd hsplit (List.splitOn_ne_nil _ _)
    · next line below hsplit => rw [hsplit]; rfl
  rw [Buffer.content, hlines, List.intercalate_splitOn, String.ofList_toList]

/-- A movement leaves the text alone, as it leaves the lines alone. -/
theorem Buffer.content_movement {go : Buffer → Buffer} (h : go ∈ movements) (buffer : Buffer) :
    (go buffer).content = buffer.content := by
  rw [content, lines_movement h, content]

namespace Editor

/-! ## The text saved last -/

section
variable (opened : String) (earlier : List Signal)

/-- After a save the text last saved is the one of that save. -/
theorem lastText_append_save (file content : String) :
    lastText opened (earlier ++ [.save file content]) = content := by
  simp [lastText, savedTexts, Signal.text?]

/-- An exit saves no text. -/
theorem lastText_append_exit : lastText opened (earlier ++ [.exit]) = lastText opened earlier := by
  simp [lastText, savedTexts, Signal.text?]

/-- A save with an exit behind it is still the last one. -/
theorem lastText_append_save_exit (file content : String) :
    lastText opened (earlier ++ [.save file content, .exit]) = content := by
  rw [List.append_cons, lastText_append_exit, lastText_append_save]

end

/-! ## Directives -/

/-- Only `q!` closes the editor and gives up what is not saved. -/
theorem eq_of_lookup_discard {typed : String}
    (h : Directive.table.lookup typed = some (.quit true)) : typed = "q!" := by
  have hmem : (typed, Directive.quit true) ∈ Directive.table := Named.mem_of_get? h
  simpa [Directive.table] using hmem

/-! ## The invariant -/

/-- Without the mark of change the text is the one saved last. -/
def Kept (opened : String) (signals : List Signal) (editor : Editor) : Prop :=
  editor.modified = false → editor.buffer.content = lastText opened signals

variable {opened : String} {earlier signals : List Signal} {before after : Editor}

/-- A save establishes the invariant, whatever held before. -/
theorem kept_save (editor : Editor) :
    editor.save.2.Kept opened (earlier ++ editor.save.1) :=
  fun _ => (lastText_append_save opened earlier editor.file editor.buffer.content).symm

/-- Closing the editor keeps the invariant. -/
theorem kept_close {editor : Editor} (h : editor.Kept opened earlier) :
    editor.close.2.Kept opened (earlier ++ editor.close.1) := by
  intro hmodified
  rw [close, lastText_append_exit]
  exact h hmodified

/-- A directive keeps the invariant. -/
theorem kept_carryOut {editor : Editor} (h : editor.Kept opened earlier) (directive : Directive) :
    (editor.carryOut directive).2.Kept opened (earlier ++ (editor.carryOut directive).1) := by
  cases directive with
  | write => exact kept_save editor
  | quit discard =>
    cases discard with
    | true => exact kept_close h
    | false =>
      rw [carryOut]
      split
      · rw [List.append_nil]
        exact h
      · exact kept_close h
  | writeQuit =>
    intro _
    exact (lastText_append_save_exit _ _ _ _).symm

/-- A step keeps the invariant: it leaves the text alone, or sets the mark of change, or saves. -/
theorem Kept.act (h : Act before signals after) (hbefore : before.Kept opened earlier) :
    after.Kept opened (earlier ++ signals) := by
  cases h with
  | turn | yank =>
    rw [List.append_nil]
    exact hbefore
  | move mode hgo =>
    rw [List.append_nil]
    intro hmodified
    exact (Buffer.content_movement hgo _).trans (hbefore hmodified)
  | edit | put => exact nofun
  | obey hmode hdirective =>
    have hclean : Kept opened earlier { before with mode := .normal, message := none } := hbefore
    exact kept_carryOut hclean _

/-- A call keeps the invariant. -/
theorem Kept.call (h : before.Kept opened earlier) (call : Call) :
    (before.call call).2.Kept opened (earlier ++ (before.call call).1) := by
  rcases before.call_cases call with hsave | hclosed | ⟨-, hact⟩
  · rw [hsave]
    exact kept_save before
  · rw [hclosed, List.append_nil]
    exact h
  · exact h.act hact

/-! ## Closing -/

/-- An editor that is closed, but not by `q!`, holds the text saved last. -/
theorem Act.content_of_closed (h : Act before signals after) (hbefore : before.Kept opened earlier)
    (hopen : before.closed = false) (hclosed : after.closed = true)
    (hmode : before.mode ≠ .command "q!") :
    after.buffer.content = lastText opened (earlier ++ signals) := by
  have hkept := hbefore.act h
  cases h with
  | turn | move | edit | yank | put => simp [hopen] at hclosed
  | @obey typed directive htyped hdirective =>
    -- Without the mark of change the invariant says it; only `q!` closes in spite of the mark.
    refine hkept ?_
    cases directive with
    | write | writeQuit => rfl
    | quit discard =>
      cases discard with
      | true => exact absurd (eq_of_lookup_discard hdirective ▸ htyped) hmode
      | false =>
        cases hmodified : before.modified with
        | true => simp [carryOut, hmodified, hopen] at hclosed
        | false => simp [carryOut, close]

/-- A closed editor keeps its text and can only be asked to save that text, so the text last saved
stays the one it holds. -/
theorem content_callAll_of_closed (h : before.closed = true)
    (hcontent : before.buffer.content = lastText opened earlier) (calls : List Call) :
    (before.callAll calls).2.buffer.content =
      lastText opened (earlier ++ (before.callAll calls).1) := by
  refine (callAll_induction (fun signals editor => editor.closed = true ∧
    editor.buffer.content = lastText opened signals) ?_ ⟨h, hcontent⟩ calls).2
  rintro earlier editor call ⟨hclosed, hcontent⟩
  cases call with
  | save => exact ⟨hclosed, (lastText_append_save _ _ _ _).symm⟩
  | press key =>
    rw [Editor.call, press_of_closed hclosed, List.append_nil]
    exact ⟨hclosed, hcontent⟩

/-- Without the mark of change an editor holds the text that was saved last, or the one it was
opened with. -/
theorem kept_callAll (file content : String) (calls : List Call) :
    ((start file content).callAll calls).2.Kept content ((start file content).callAll calls).1 := by
  have hstart : (start file content).Kept content [] := fun _ => Buffer.content_ofContent content
  exact callAll_induction (fun signals editor => editor.Kept content signals)
    (fun _ _ call h => h.call call) hstart calls

/-- **No change is forgotten.** Whatever calls an editor has answered, without the mark of change it
holds the text that was saved last, or the one that it was opened with if none was saved; and so it
does at the end if a key has closed it while anything but `q!` was typed, whatever came after. -/
theorem content_eq_lastText (file content : String) (calls : List Call) :
    let ran := (start file content).callAll calls
    (ran.2.modified = false → ran.2.buffer.content = lastText content ran.1) ∧
      ∀ (earlier : List Call) (key : Key) (later : List Call),
        calls = earlier ++ .press key :: later →
        let before := ((start file content).callAll earlier).2
        before.closed = false → (before.press key).2.closed = true →
        before.mode ≠ .command "q!" → ran.2.buffer.content = lastText content ran.1 := by
  refine ⟨kept_callAll file content calls, ?_⟩
  rintro earlier key later rfl before hopen hclosed hmode
  have hkept : before.Kept content ((start file content).callAll earlier).1 :=
    kept_callAll file content earlier
  have hcontent := (act_press before hopen key).content_of_closed hkept hopen hclosed hmode
  have hlater := content_callAll_of_closed hclosed hcontent later
  rw [callAll_append]
  rwa [List.append_assoc] at hlater

/-- An editor that `:x` has closed is asked once more to save. -/
theorem content_eq_lastText_of_close :
    let calls : List Call := [.press (.char 'D'), .press (.char ':'), .press (.char 'x'),
      .press .enter, .save]
    let ran := (start "notes" "milk").callAll calls
    ran.2.closed = true ∧ ran.2.buffer.content = lastText "milk" ran.1 := by
  intro calls ran
  have hclosed : ran.2.closed = true := by decide +kernel
  have hcontent := (content_eq_lastText "notes" "milk" calls).2
    [.press (.char 'D'), .press (.char ':'), .press (.char 'x')] .enter [.save] rfl
    (by decide +kernel) (by decide +kernel) (by decide +kernel)
  exact ⟨hclosed, hcontent⟩

end Editor

end PocketShell
