import PocketShell.Proofs.Command.Indiscernible
import PocketShell.Session.Call

/-!
# What a session keeps of its store

A session does nothing with its store but save texts and take them out. So what both keep of a store
(`Storage.Keeps`), every command and every call keep, and the keys stay as they are. Main statement:
`Session.keeps_after`.
-/

namespace PocketShell

/-- Saving and taking out keep a property of the store, done or refused. -/
structure Storage.Keeps {σ : Type} [Storage σ] (p : σ → Prop) : Prop where
  save (store : σ) (key value : String) : p store → p (Storage.save store key value).2
  remove (store : σ) (key : String) : p store → p (Storage.remove store key).2

open Storage (Keeps)

variable {σ : Type} [Storage σ] {p : σ → Prop}

namespace Command

/-- Taking texts out one after another keeps the property, also where it stops at a refusal. -/
theorem keeps_removeAll (hp : Keeps p) (keys : List String) {store : σ} (h : p store) :
    p (removeAll keys store).2 := by
  induction keys generalizing store with
  | nil => exact h
  | cons key keys ih =>
    have hremove := hp.remove store key h
    rw [removeAll]
    split
    · next hdone => rw [hdone] at hremove; exact ih hremove
    · next hrefused => rwa [hrefused] at hremove

/-- Forgetting what is stored keeps the property and the keys. -/
theorem keeps_forget (hp : Keeps p) (context : Context σ) (h : p context.store) :
    p (forget context).2.store ∧ (forget context).2.keys = context.keys := by
  have hremoved := keeps_removeAll hp context.keys.all h
  unfold forget
  split
  · next hdone => rw [hdone] at hremoved; exact ⟨hremoved, rfl⟩
  · next hrefused => rw [hrefused] at hremoved; exact ⟨hremoved, rfl⟩

end Command

namespace Context

/-- Two contexts that are one, on a store with a property and under some keys. -/
structure On (p : σ → Prop) (keys : StorageKeys) (first second : Context σ) : Prop where
  eq : second = first
  store : p first.store
  keys_eq : first.keys = keys

omit [Storage σ] in
/-- A context is one with itself, on a store with the property. -/
theorem On.same {keys : StorageKeys} {context : Context σ} (h : p context.store)
    (hkeys : context.keys = keys) : context.On p keys context :=
  ⟨rfl, h, hkeys⟩

/-- Saving under a key keeps the property, done or refused. -/
theorem keeps_save (hp : Keeps p) (context : Context σ) (key written : String)
    (h : p context.store) : p (context.save key written).store := by
  have hsave := hp.save context.store key written h
  unfold save
  split <;> next hresult => rwa [hresult] at hsave

/-- A property of the store is kept like a relation between a context and itself. -/
theorem indiscernible_on (hp : Keeps p) (keys : StorageKeys) :
    Indiscernible (On p keys : Context σ → Context σ → Prop) where
  files h := by rw [h.eq]
  login h := by rw [h.eq]; rfl
  keys h := by rw [h.eq]
  withFiles h files := ⟨by rw [h.eq], h.store, h.keys_eq⟩
  withLogin h login hhistory := ⟨by rw [h.eq, ← hhistory]; rfl, h.store, h.keys_eq⟩
  ask h request := ⟨by rw [h.eq], h.store, h.keys_eq⟩
  report h notice := ⟨by rw [h.eq], h.store, h.keys_eq⟩
  save {first second} h key _ written := by
    obtain ⟨store, notices, hsave⟩ := first.save_eq key written
    refine ⟨by rw [h.eq], keeps_save hp first key written h.store, ?_⟩
    rw [hsave]
    exact h.keys_eq

end Context

namespace Command

/-- Every command keeps what saving and taking out keep of the store. -/
theorem keeps_run (hp : Keeps p) (now : Calendar.Moment) (context : Context σ) (command : Command)
    (h : p context.store) :
    p (run now context command).2.store ∧ (run now context command).2.keys = context.keys := by
  obtain ⟨hstore, hkeys⟩ := keeps_forget hp context h
  obtain ⟨-, hafter⟩ : Context.AnswersAlike (Context.On p context.keys) (run now context command)
      (run now context command) :=
    answersAlike_run (Context.indiscernible_on hp context.keys) (.same h rfl) now now
      (fun _ => rfl) (fun _ => rfl) fun _ => ⟨rfl, .same hstore hkeys⟩
  exact ⟨hafter.store, hafter.keys_eq⟩

end Command

namespace Session

open Context (On)

/-- A call keeps the property and the keys. -/
theorem keeps_call (hp : Keeps p) {session : Session σ} (call : Call) (h : p session.store) :
    p (session.call call).2.store ∧ (session.call call).2.keys = session.keys := by
  have hR := Context.indiscernible_on hp session.keys
  have hsession : session.toContext.On p session.keys session.toContext := .same h rfl
  cases call with
  | execute now line =>
    have hrecord : (session.record line).On p session.keys (session.record line) := .same h rfl
    obtain ⟨hstore, hkeys⟩ := Command.keeps_forget hp (session.record line) h
    obtain ⟨-, hafter⟩ := answersAlike_execute hR hsession now hrecord rfl
      fun _ => ⟨rfl, .same hstore hkeys⟩
    rw [call_execute_snd]
    exact ⟨hafter.store, hafter.keys_eq⟩
  | saveFile path content =>
    obtain ⟨-, hafter⟩ := answersAlike_saveFile hR hsession path content
    rw [call_saveFile_snd]
    exact ⟨hafter.store, hafter.keys_eq⟩
  | complete | takeRequest => exact ⟨h, rfl⟩

/-- Starting a session keeps the property; its keys are those of the stem. -/
theorem keeps_start (hp : Keeps p) (settings : Settings) {store : σ} (h : p store) :
    p (start settings store).store ∧
      (start settings store).keys = .ofStem settings.stem := by
  let restored := Restored.load (.ofStem settings.stem) store
  have hopening : (opening settings restored store).On p (.ofStem settings.stem)
      (opening settings restored store) := .same h rfl
  have hstart := related_saveUnrestored (Context.indiscernible_on hp _) restored hopening
  exact ⟨hstart.store, hstart.keys_eq⟩

/-- **What saving and taking out keep of a store, every run keeps**, and the keys are those of the
stem. -/
theorem keeps_after (hp : Keeps p) (settings : Settings) {store : σ} (h : p store)
    (calls : List Call) :
    p ((start settings store).after calls).store ∧
      ((start settings store).after calls).keys = .ofStem settings.stem := by
  refine after_induction (fun session => p session.store ∧ session.keys = .ofStem settings.stem)
    (fun session call _ hsession => ?_) (keeps_start hp settings h)
  obtain ⟨hstore, hkeys⟩ := keeps_call hp call hsession.1
  exact ⟨hstore, hkeys.trans hsession.2⟩

end Session

end PocketShell
