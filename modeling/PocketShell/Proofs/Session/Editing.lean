import PocketShell.Proofs.Editor.Act
import PocketShell.Proofs.Session.Sync
import PocketShell.Proofs.Tree.Writing
import PocketShell.Session.Editing

/-!
# Editing a file

A line `vi` opens the editor only where a file can be written, and from then on the editor has texts
saved there and nowhere else. `Session.Edited` and `Session.Stored` say what a session is after some
texts were saved one after another; each save keeps both. Main statement:
`Session.edited_of_execute`, what comes of the line and of any keys typed into the editor that it
opens.
-/

namespace PocketShell

open KeepingStorage (values Accepts)

/-! ## Opening -/

namespace Context

variable {σ : Type}

/-- If `vi` opens the editor, then for the file its operand names, with the content that this file
can be edited from; nothing but the request is new. -/
theorem openEditor_eq_editorOpened {context : Context σ} {operand? : Option String}
    (h : (Command.openEditor context operand?).1 = .editorOpened) :
    ∃ operand request, operand? = some operand ∧ request.path = context.resolve operand ∧
      Command.contentToEdit context.files request.path = .ok request.content ∧
      (Command.openEditor context operand?).2 = { context with request := some request } := by
  cases operand? with
  | none => cases h
  | some operand =>
    rw [Command.openEditor] at h ⊢
    cases hcontent : Command.contentToEdit context.files (context.resolve operand) with
    | error fault => simp [hcontent] at h
    | ok content => exact ⟨operand, ⟨context.resolve operand, content⟩, rfl, rfl, hcontent, by simp⟩

/-- Either name of the editor, without a redirection, is run with its first operand. -/
theorem dispatch_vi [Storage σ] (now : Calendar.Moment) (context : Context σ) {input : String}
    {line : Line} (hline : Line.parse input = .ok (some line))
    (hname : line.name = "vi" ∨ line.name = "vim") (hredirect : line.redirect = none) :
    context.dispatch now input = Command.openEditor context line.args.head? := by
  have hcommand : Command.parse? line.name line.args = some (.vi line.args.head?) := by
    rcases hname with hname | hname
    · rw [hname]
      rfl
    · rw [hname]
      rfl
  rw [dispatch, hline]
  simp only [answer, hcommand, Command.run, Command.done, hredirect]

/-- What saving a changed tree leaves in a store that accepts it. -/
theorem exists_persistTree_eq [Storage σ] [KeepingStorage σ] (context : Context σ)
    (h : Accepts context.store) : ∃ store,
    context.persistTree = { context with files := context.files.settled, store } ∧ Accepts store ∧
      (context.files.changed = true →
        Storage.load store context.keys.tree = some context.files.root.toJson) ∧
      ∀ key, key ≠ context.keys.tree → Storage.load store key = Storage.load context.store key := by
  cases hchanged : context.files.changed with
  | false =>
    refine ⟨context.store, ?_, h, nofun, fun _ _ => rfl⟩
    rw [persistTree, hchanged, FileSystem.settled_of_not_changed hchanged]
    rfl
  | true =>
    obtain ⟨store, hsave, haccepts, hvalues⟩ := exists_save
      { context with files := context.files.settled } h context.keys.tree context.files.root.toJson
    refine ⟨store, ?_, haccepts, fun _ => ?_, fun key hkey => ?_⟩
    · rw [persistTree, if_pos hchanged, saveTree, hsave]
    · rw [KeepingStorage.load_eq, hvalues, Std.ExtTreeMap.getElem?_insert_self]
    · have hother : compare context.keys.tree key ≠ .eq := by simpa using Ne.symm hkey
      rw [KeepingStorage.load_eq, KeepingStorage.load_eq, hvalues,
        Std.ExtTreeMap.getElem?_insert, if_neg hother]

end Context

namespace Session

variable {σ : Type} [Storage σ]

/-- The session after a line has opened the editor and its request has been taken. -/
def handedOver (session : Session σ) (input : String) (request : EditRequest) : Session σ :=
  { session with
    toContext :=
      { Context.persistTree { session.record input with request := some request } with
        request := none } }

/-- Opening the editor and taking its request changes no entry of the tree: the line is recorded and
what was unsaved is saved. -/
theorem handedOver_eq (session : Session σ) (input : String) (request : EditRequest) :
    ∃ store notices, session.handedOver input request =
      { session with
        toContext :=
          { session.toContext with
            files := session.files.settled, login := session.login.record input,
            request := none, store, notices } } := by
  obtain ⟨store, notices, htree⟩ :=
    Context.persistTree_eq { session.record input with request := some request }
  refine ⟨store, notices, ?_⟩
  rw [handedOver, htree]
  rfl

/-- In a session without an unsaved change, opening the editor and taking its request leaves no
trace but the line. -/
theorem handedOver_of_not_changed {session : Session σ} (h : session.files.changed = false)
    (input : String) (request : EditRequest) :
    (session.handedOver input request).toContext =
      { session.toContext with login := session.login.record input, request := none } := by
  have hsame : Context.persistTree { session.record input with request := some request } =
      { session.record input with request := some request } := if_neg (by simp [h, Context.record])
  rw [handedOver, hsame]
  rfl

/-- Opening the editor writes under the key of the tree at most, on a store that goes on accepting.
-/
theorem accepts_handedOver [KeepingStorage σ] {session : Session σ} (h : Accepts session.store)
    (input : String) (request : EditRequest) :
    Accepts (session.handedOver input request).store ∧
      ∀ key, key ≠ session.keys.tree →
        Storage.load (session.handedOver input request).store key =
          Storage.load session.store key := by
  obtain ⟨store, htree, haccepts, -, hothers⟩ := Context.exists_persistTree_eq
    { session.record input with request := some request } h
  rw [handedOver, htree]
  exact ⟨haccepts, hothers⟩

/-- When a line has opened the editor, the request to be taken is for the file that its operand
names, with the content of that file. -/
theorem takeRequest_of_editorOpened {now : Calendar.Moment} {session : Session σ} {input : String}
    {line : Line} (hline : Line.parse input = .ok (some line))
    (hname : line.name = "vi" ∨ line.name = "vim") (hredirect : line.redirect = none)
    (hopened : (session.execute now input).1 = .editorOpened) :
    ∃ operand request, line.args.head? = some operand ∧ request.path = session.resolve operand ∧
      Command.contentToEdit session.files request.path = .ok request.content ∧
      (session.execute now input).2.takeRequest =
        (some request, session.handedOver input request) := by
  have hblank : ¬ Text.isAllBlank input := by
    intro hblank
    rw [execute_of_blank now session hblank] at hopened
    cases hopened
  rw [execute_of_not_blank now session hblank] at hopened ⊢
  rw [Context.dispatch_vi now _ hline hname hredirect] at hopened ⊢
  obtain ⟨operand, request, hoperand, hpath, hcontent, hcontext⟩ :=
    Context.openEditor_eq_editorOpened hopened
  refine ⟨operand, request, hoperand, hpath, hcontent, ?_⟩
  let asked : Context σ := { session.record input with request := some request }
  have hpersist : asked.persist session.login = asked.persistTree :=
    asked.persist_of_same_login rfl rfl
  obtain ⟨store, notices, htree⟩ := asked.persistTree_eq
  rw [hcontext, takeRequest, handedOver]
  simp only [asked] at hpersist htree
  rw [hpersist, htree]

/-! ## Saving -/

/-- A session in which texts were saved as one file since another, one after another, and nothing
else was done. -/
structure Edited (place : List String) (before : Session σ) (texts : List String)
    (after : Session σ) : Prop where
  rest : ∃ files store notices,
    after = { before with toContext := { before.toContext with files, store, notices } }
  writable : after.files.root.pathMap.Writable place
  unsaved : texts = [] → after = before
  saved : ∀ content, texts.getLast? = some content →
    (Edit.write content .overwrite).Effect place before.files.root.pathMap
      after.files.root.pathMap

/-- A store that was given the tree after each of some texts was saved, and nothing else. -/
structure Stored [KeepingStorage σ] (before : Session σ) (texts : List String)
    (after : Session σ) : Prop where
  accepts : Accepts after.store
  tree : texts ≠ [] →
    Storage.load after.store before.keys.tree = some after.files.root.toJson
  others : ∀ key, key ≠ before.keys.tree →
    Storage.load after.store key = Storage.load before.store key

/-- A save at a place that can be written to writes the content over the file there and saves the
tree. -/
theorem exists_saveFile_eq {session : Session σ} {path : String}
    (hpath : Path.normalize path = path)
    (hplace : session.files.root.pathMap.Writable (Path.components path)) (content : String) :
    ∃ files, session.files.edit path (.write content .overwrite) = .ok files ∧
      files.changed = true ∧
      session.saveFile path content =
        (none, { session with
          toContext := Context.persistTree { session.toContext with files } }) := by
  obtain ⟨files, hedit, hchanged⟩ := FileSystem.exists_edit_write hplace content .overwrite
  have hresolve : Path.resolve session.login.directory path = path := by
    rw [← hpath, Path.resolve_normalize]
  exact ⟨files, hedit, hchanged, saveFile_of_ok session (hresolve.symm ▸ hedit)⟩

/-- A further save leaves a session edited, with the text added to those saved. An overwrite over an
overwrite comes to the last one (`Edit.Effect.overwrite_overwrite`). -/
theorem Edited.saveFile {path : String} {before after : Session σ} {texts : List String}
    (hpath : Path.normalize path = path) (h : Edited (Path.components path) before texts after)
    (content : String) :
    (after.saveFile path content).1 = none ∧
      Edited (Path.components path) before (texts ++ [content])
        (after.saveFile path content).2 := by
  obtain ⟨files, hedit, -, hsave⟩ := exists_saveFile_eq hpath h.writable content
  obtain ⟨store, notices, hpersist⟩ := Context.persistTree_eq { after.toContext with files }
  obtain ⟨_, _, _, hrest⟩ := h.rest
  have heffect := FileSystem.edit_effect hedit
  rw [hsave, hpersist]
  refine ⟨rfl, ⟨files.settled, store, notices, ?_⟩, heffect.writable h.writable, ?_, ?_⟩
  · rw [hrest]
  · simp
  · intro last hlast
    obtain rfl : content = last := by simpa using hlast
    -- Of the texts saved before, the last is overwritten; if there were none the tree is the same.
    cases hearlier : texts.getLast? with
    | some earlier => exact (h.saved earlier hearlier).overwrite_overwrite heffect
    | none =>
      have hsame := h.unsaved (List.getLast?_eq_none_iff.mp hearlier)
      rwa [hsame] at heffect

/-- A further save gives the store the tree as it is then. -/
theorem Stored.saveFile [KeepingStorage σ] {path : String} {before after : Session σ}
    {texts : List String} (hpath : Path.normalize path = path)
    (hedited : Edited (Path.components path) before texts after) (h : Stored before texts after)
    (content : String) :
    Stored before (texts ++ [content]) (after.saveFile path content).2 := by
  obtain ⟨files, -, hchanged, hsave⟩ := exists_saveFile_eq hpath hedited.writable content
  obtain ⟨store, hpersist, haccepts, htree, hothers⟩ :=
    Context.exists_persistTree_eq { after.toContext with files } h.accepts
  have hkeys : after.keys = before.keys := by
    obtain ⟨_, _, _, hrest⟩ := hedited.rest
    rw [hrest]
  rw [hsave, hpersist]
  simp only [hkeys] at htree hothers
  exact ⟨haccepts, fun _ => htree hchanged,
    fun key hkey => (hothers key hkey).trans (h.others key hkey)⟩

/-- What every save of a file keeps, of the texts so far and the session, the signals of its editor
keep. -/
theorem heedAll_induction {path : String} (p : List String → Session σ → Prop)
    (hsave : ∀ texts session content, p texts session →
      (session.saveFile path content).1 = none ∧
        p (texts ++ [content]) (session.saveFile path content).2)
    {signals : List Editor.Signal} (hsignals : Editor.SavesOnly path signals)
    {session : Session σ} (h : p [] session) :
    (∀ fault ∈ (session.heedAll signals).1, fault = none) ∧
      p (Editor.savedTexts signals) (session.heedAll signals).2 := by
  suffices hrun : ∀ (texts : List String) (session : Session σ), p texts session →
      (∀ fault ∈ (session.heedAll signals).1, fault = none) ∧
        p (texts ++ Editor.savedTexts signals) (session.heedAll signals).2 from
    hrun [] session h
  clear h
  induction signals with
  | nil =>
    intro texts session h
    exact ⟨by simp [heedAll], by simpa [heedAll, Editor.savedTexts] using h⟩
  | cons signal signals ih =>
    intro texts session h
    have hrest : Editor.SavesOnly path signals :=
      fun file content hmem => hsignals file content (.tail _ hmem)
    cases signal with
    | exit =>
      obtain ⟨hfaults, hp⟩ := ih hrest texts session h
      exact ⟨by simpa [heedAll, heed] using hfaults, hp⟩
    | save file content =>
      obtain rfl : file = path := hsignals file content (.head _)
      obtain ⟨hnone, hsaved⟩ := hsave texts session content h
      obtain ⟨hfaults, hp⟩ := ih hrest _ _ hsaved
      refine ⟨?_, ?_⟩
      · simpa [heedAll, heed, hnone] using hfaults
      · simpa [heedAll, heed, Editor.savedTexts, Editor.Signal.text?] using hp

/-- An editor of a file that can be written gets all its texts saved. -/
theorem edited_heedAll {session : Session σ} {path : String} (hpath : Path.normalize path = path)
    (hplace : session.files.root.pathMap.Writable (Path.components path))
    {signals : List Editor.Signal} (hsignals : Editor.SavesOnly path signals) :
    (∀ fault ∈ (session.heedAll signals).1, fault = none) ∧
      Edited (Path.components path) session (Editor.savedTexts signals)
        (session.heedAll signals).2 ∧
      ∀ [KeepingStorage σ], Accepts session.store →
        Stored session (Editor.savedTexts signals) (session.heedAll signals).2 := by
  have hnothing : Edited (Path.components path) session [] session :=
    ⟨⟨_, _, _, rfl⟩, hplace, fun _ => rfl, nofun⟩
  refine heedAll_induction
    (fun texts after => Edited (Path.components path) session texts after ∧
      ∀ [KeepingStorage σ], Accepts session.store → Stored session texts after)
    ?_ hsignals ⟨hnothing, fun haccepts => ⟨haccepts, fun h => absurd rfl h, fun _ _ => rfl⟩⟩
  rintro texts after content ⟨hedited, hstored⟩
  obtain ⟨hnone, hsaved⟩ := hedited.saveFile hpath content
  exact ⟨hnone, hsaved, fun haccepts => (hstored haccepts).saveFile hpath hedited content⟩

/-- The editor for a request saves into the file that was asked for only. -/
theorem savesOnly_editorFor (request : EditRequest) (keys : List Key) :
    Editor.SavesOnly request.path ((editorFor request).pressAll keys).1 := by
  have hrun := Editor.savesOnly_callAll (editorFor request) (keys.map .press)
  rwa [← Editor.pressAll_eq_callAll] at hrun

/-! ## From the line to the last key -/

/-- **A file is edited, and nothing else.** When a line `vi` has opened the editor, then whatever
keys are typed into it, every text that it wants saved is saved. At the end the session is what it
was before the line, but that the line stands in the history, the request has been handed over, and
the tree and what is stored of it are others if a text was saved. The tree is then the one before
the line with the text that was saved last as the file at the path of the request; and a store that
keeps what it is given holds that tree, and for the rest what it held. -/
theorem edited_of_execute {now : Calendar.Moment} {session : Session σ} {input : String}
    {line : Line} (hline : Line.parse input = .ok (some line))
    (hname : line.name = "vi" ∨ line.name = "vim") (hredirect : line.redirect = none)
    (hopened : (session.execute now input).1 = .editorOpened) (keys : List Key) :
    ∃ operand request, line.args.head? = some operand ∧ request.path = session.resolve operand ∧
      Command.contentToEdit session.files request.path = .ok request.content ∧
      (session.execute now input).2.takeRequest.1 = some request ∧
      let taken := (session.execute now input).2.takeRequest.2
      let signals := ((editorFor request).pressAll keys).1
      let texts := Editor.savedTexts signals
      let heeded := taken.heedAll signals
      (∀ fault ∈ heeded.1, fault = none) ∧
        (∃ files store notices, heeded.2 =
          { session with
            toContext :=
              { session.toContext with
                files, store, notices, login := session.login.record input, request := none } }) ∧
        (texts = [] → heeded.2.files.root = session.files.root ∧
          (session.files.changed = false → heeded.2.toContext =
            { session.toContext with
              login := session.login.record input, request := none })) ∧
        (∀ content, texts.getLast? = some content →
          (Edit.write content .overwrite).Effect (Path.components request.path)
            session.files.root.pathMap heeded.2.files.root.pathMap) ∧
        ∀ [KeepingStorage σ], Accepts session.store →
          (texts ≠ [] → Storage.load heeded.2.store session.keys.tree =
            some heeded.2.files.root.toJson) ∧
          ∀ key, key ≠ session.keys.tree →
            Storage.load heeded.2.store key = Storage.load session.store key := by
  obtain ⟨operand, request, hoperand, hpath, hcontent, htaken⟩ :=
    takeRequest_of_editorOpened hline hname hredirect hopened
  refine ⟨operand, request, hoperand, hpath, hcontent, by rw [htaken], ?_⟩
  rw [htaken]
  intro taken signals texts heeded
  have hnormal : Path.normalize request.path = request.path := by
    rw [hpath]
    exact Path.normalize_resolve _ _
  obtain ⟨store, notices, heq⟩ : ∃ store notices, taken = _ := session.handedOver_eq input request
  have hroot : taken.files.root = session.files.root := by
    rw [heq]
    rfl
  -- The tree is the one in which the file was found, so it can still be written.
  have hplace : taken.files.root.pathMap.Writable (Path.components request.path) := by
    rw [hroot]
    exact Command.writable_of_contentToEdit hcontent
  obtain ⟨hfaults, hedited, hstored⟩ :=
    edited_heedAll hnormal hplace (savesOnly_editorFor request keys)
  refine ⟨hfaults, ?_, fun hunsaved => ?_, fun content hlast => ?_, ?_⟩
  · obtain ⟨files, store', notices', hrest⟩ := hedited.rest
    refine ⟨files, store', notices', ?_⟩
    rw [hrest, heq]
  · have hsame : heeded.2 = taken := hedited.unsaved hunsaved
    rw [hsame]
    exact ⟨hroot, fun hchanged => handedOver_of_not_changed hchanged input request⟩
  · rw [← hroot]
    exact hedited.saved content hlast
  · intro _ haccepts
    have hkeys : taken.keys = session.keys := by rw [heq]
    obtain ⟨htaken, hothers⟩ := accepts_handedOver haccepts input request
    have hheeded := hstored htaken
    refine ⟨fun hsaved => ?_, fun key hkey => ?_⟩
    · rw [← hkeys]
      exact hheeded.tree hsaved
    · exact (hheeded.others key (hkeys.symm ▸ hkey)).trans (hothers key hkey)

/-- A new file is written, and what is typed afterwards discarded. -/
theorem edited_of_execute_new :
    let session : Session MemoryStore :=
      { files := .empty, login := .start "user" "/" "/", store := ⟨∅⟩, keys := .ofStem "shell",
        hostname := "host" }
    let keys := [.char 'i', .char 'h', .char 'i', .escape, .char ':', .char 'w', .enter,
      .char 'x', .char ':', .char 'q', .char '!', .enter]
    let opened := (session.execute ⟨0, 0⟩ "vi notes").2.takeRequest
    opened.1 = some ⟨"/notes", ""⟩ ∧
      let heeded := opened.2.heedAll ((editorFor ⟨"/notes", ""⟩).pressAll keys).1
      (Edit.write "hi" .overwrite).Effect ["notes"] session.files.root.pathMap
          heeded.2.files.root.pathMap ∧
        Storage.load heeded.2.store "shell_filesystem" = some heeded.2.files.root.toJson := by
  intro session keys opened
  have hline : Line.parse "vi notes" = .ok (some ⟨"vi", ["notes"], none⟩) := rfl
  have hopened : (session.execute ⟨0, 0⟩ "vi notes").1 = .editorOpened := by decide +kernel
  obtain ⟨operand, ⟨path, content⟩, hoperand, hpath, hcontent, hrequest, -, -, -, hsaved,
    hstored⟩ := edited_of_execute hline (.inl rfl) rfl hopened keys
  obtain rfl : "notes" = operand := Option.some.inj hoperand
  obtain rfl : path = "/notes" := hpath.trans (by decide +kernel)
  have hempty : Command.contentToEdit session.files "/notes" = .ok "" := rfl
  obtain rfl : "" = content := Except.ok.inj (hempty.symm.trans hcontent)
  have htexts : Editor.savedTexts ((editorFor ⟨"/notes", ""⟩).pressAll keys).1 = ["hi"] := by
    decide +kernel
  refine ⟨hrequest, ?_, ?_⟩
  · have heffect := hsaved "hi" (by rw [htexts]; rfl)
    rwa [show Path.components "/notes" = ["notes"] by decide +kernel] at heffect
  · exact (hstored trivial).1 (by simp [htexts])

end Session

end PocketShell
