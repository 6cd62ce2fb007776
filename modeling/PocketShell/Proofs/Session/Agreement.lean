import PocketShell.Proofs.Session.Refusal
import PocketShell.Proofs.Session.Reset

/-!
# Sessions that agree under their keys

A session reads and writes its store under its own keys only. So two sessions that look the same and
whose stores agree there (`Session.Agree`) go on agreeing, a confirmed `reset` included, whatever
the stores have under other keys; and what they have there stays as it is. Main statements:
`Session.agree_start` and `Session.Agree.call`.
-/

namespace PocketShell

open ObedientStorage (Obeys)

section
variable {σ τ : Type} [Storage σ] [KeepingStorage σ] [ObedientStorage σ] [Storage τ]
  [KeepingStorage τ] [ObedientStorage τ]

/-! ## Stores -/

namespace Storage

/-- A store that obeys takes a text under its key, leaves the other keys, and obeys on. -/
theorem exists_save_eq {store : σ} (h : Obeys store) (key value : String) :
    ∃ after, save store key value = (.ok (), after) ∧ Obeys after ∧
      ∀ other, load after other = if key = other then some value else load store other := by
  obtain ⟨after, hsave, -, hvalues⟩ :=
    KeepingStorage.save_eq store key value (ObedientStorage.accepts store h)
  have hobeys := ObedientStorage.obeys_save store key value h
  rw [hsave] at hobeys
  refine ⟨after, hsave, hobeys, fun other => ?_⟩
  simp only [KeepingStorage.load_eq, hvalues, Std.ExtTreeMap.getElem?_insert,
    Std.compare_eq_iff_eq]

/-- Two stores that obey and have the same texts under some keys. Under all other keys the first has
the texts `others`. -/
structure Agree (keys : List String) (others : String → Option String) (first : σ) (second : τ) :
    Prop where
  obeys : Obeys first
  obeys' : Obeys second
  own : ∀ key ∈ keys, load first key = load second key
  others : ∀ key ∉ keys, load first key = others key

variable {keys : List String} {others : String → Option String} {first : σ} {second : τ}

/-- Stores that agree under some keys still do when the same text is saved under one of these. -/
theorem Agree.save (h : Agree keys others first second) {key : String} (hkey : key ∈ keys)
    (value : String) :
    ∃ after after', Storage.save first key value = (.ok (), after) ∧
      Storage.save second key value = (.ok (), after') ∧ Agree keys others after after' := by
  obtain ⟨after, hsave, hobeys, hload⟩ := exists_save_eq h.obeys key value
  obtain ⟨after', hsave', hobeys', hload'⟩ := exists_save_eq h.obeys' key value
  refine ⟨after, after', hsave, hsave', hobeys, hobeys', fun other hother => ?_,
    fun other hother => ?_⟩
  · rw [hload, hload', h.own other hother]
  · have hne : key ≠ other := by
      rintro rfl
      exact hother hkey
    rw [hload, if_neg hne, h.others other hother]

/-- Stores that agree under some keys still do when the texts under all of these are removed. -/
theorem Agree.removeAll (h : Agree keys others first second) :
    ∃ after after', Command.removeAll keys first = (.ok (), after) ∧
      Command.removeAll keys second = (.ok (), after') ∧ Agree keys others after after' := by
  obtain ⟨after, hremove, hobeys, hload⟩ := Command.exists_removeAll_eq keys h.obeys
  obtain ⟨after', hremove', hobeys', hload'⟩ := Command.exists_removeAll_eq keys h.obeys'
  refine ⟨after, after', hremove, hremove', hobeys, hobeys', fun key hkey => ?_,
    fun key hkey => ?_⟩
  · rw [hload, hload', if_pos hkey, if_pos hkey]
  · rw [hload, if_neg hkey, h.others key hkey]

end Storage

/-! ## Contexts -/

namespace Context

/-- Two contexts that look the same, with the same keys, and with stores that agree there. -/
structure Agree (keys : StorageKeys) (others : String → Option String) (first : Context σ)
    (second : Context τ) : Prop where
  alike : first.Alike second
  keys_eq : first.keys = keys
  stores : Storage.Agree keys.all others first.store second.store

variable {keys : StorageKeys} {others : String → Option String} {first : Context σ}
  {second : Context τ}

/-- Contexts that agree are indiscernible, under saving as well: both stores take every text. -/
theorem indiscernible_agree (keys : StorageKeys) (others : String → Option String) :
    Indiscernible fun (first : Context σ) (second : Context τ) =>
      first.Agree keys others second where
  files h := h.alike.files
  login h := indiscernible_alike.login h.alike
  keys h := h.alike.keys
  withFiles h files := ⟨indiscernible_alike.withFiles h.alike files, h.keys_eq, h.stores⟩
  withLogin h login hhistory :=
    ⟨indiscernible_alike.withLogin h.alike login hhistory, h.keys_eq, h.stores⟩
  ask h request := ⟨indiscernible_alike.ask h.alike request, h.keys_eq, h.stores⟩
  report h notice := ⟨indiscernible_alike.report h.alike notice, h.keys_eq, h.stores⟩
  save {first second} h key hkey written := by
    rw [h.keys_eq] at hkey
    obtain ⟨after, after', hsave, hsave', hstores⟩ := h.stores.save hkey written
    rw [save, save, hsave, hsave']
    exact ⟨⟨h.alike.files, h.alike.login, h.alike.request, h.alike.keys⟩, h.keys_eq, hstores⟩

/-- Contexts that agree forget what is stored alike. -/
theorem Agree.forget (h : first.Agree keys others second) :
    AnswersAlike (fun (first : Context σ) (second : Context τ) => first.Agree keys others second)
      (Command.forget first) (Command.forget second) := by
  obtain ⟨after, after', hremove, hremove', hstores⟩ := h.stores.removeAll
  have hfirst : Command.removeAll first.keys.all first.store = (.ok (), after) := by
    rw [h.keys_eq, hremove]
  have hsecond : Command.removeAll second.keys.all second.store = (.ok (), after') := by
    rw [h.alike.keys, h.keys_eq, hremove']
  rw [Command.forget, Command.forget, hfirst, hsecond]
  exact ⟨rfl, ⟨h.alike.files, h.alike.login, h.alike.request, h.alike.keys⟩, h.keys_eq, hstores⟩

/-- Contexts that agree still do when both record a line. -/
theorem Agree.record (h : first.Agree keys others second) (line : String) :
    (first.record line).Agree keys others (second.record line) :=
  ⟨⟨h.alike.files, congrArg (·.record line) h.alike.login, h.alike.request, h.alike.keys⟩,
    h.keys_eq, h.stores⟩

end Context

/-! ## Sessions -/

namespace Session

/-- Two sessions that look the same, with the same keys, and with stores that agree there. -/
structure Agree (keys : StorageKeys) (others : String → Option String) (first : Session σ)
    (second : Session τ) : Prop where
  context : first.toContext.Agree keys others second.toContext
  hostname : second.hostname = first.hostname

variable {keys : StorageKeys} {others : String → Option String} {first : Session σ}
  {second : Session τ}

/-- Sessions that agree differ in the store and the notices at most. -/
theorem Agree.alike (h : first.Agree keys others second) : first.Alike second :=
  ⟨h.context.alike, h.hostname⟩

/-- **Sessions that agree answer every call alike, and agree after it.** -/
theorem Agree.call (h : first.Agree keys others second) (call : Call) :
    (first.call call).1 = (second.call call).1 ∧
      (first.call call).2.Agree keys others (second.call call).2 := by
  have hhostname : (second.call call).2.hostname = (first.call call).2.hostname := by
    rw [hostname_call, hostname_call, h.hostname]
  have halike := h.context.alike
  have hhandOver : first.takeRequest.2.toContext.Agree keys others second.takeRequest.2.toContext :=
    ⟨⟨halike.files, halike.login, rfl, halike.keys⟩, h.context.keys_eq, h.context.stores⟩
  obtain ⟨hreply, hafter⟩ := answersAlike_call (Context.indiscernible_agree keys others) h.context
    call h.context.record (congrArg Login.history halike.login) halike.request hhandOver
    fun _ line _ _ => (h.context.record line).forget
  exact ⟨hreply, hafter, hhostname⟩

/-- **Sessions that begin on stores that agree under their keys agree.** -/
theorem agree_start (settings : Settings) {first : σ} {second : τ}
    (h : Storage.Agree (StorageKeys.ofStem settings.stem).all others first second) :
    (start settings first).Agree (.ofStem settings.stem) others (start settings second) := by
  have hload : Restored.load (.ofStem settings.stem) first =
      Restored.load (.ofStem settings.stem) second := by
    rw [Restored.load, Restored.load, h.own _ (StorageKeys.tree_mem_all _),
      h.own _ (StorageKeys.directory_mem_all _), h.own _ (StorageKeys.user_mem_all _)]
  have hopening (restored : Restored) : (opening settings restored first).Agree
      (.ofStem settings.stem) others (opening settings restored second) :=
    ⟨⟨rfl, rfl, rfl, rfl⟩, rfl, h⟩
  refine ⟨?_, rfl⟩
  rw [start, start, hload]
  exact related_saveUnrestored (Context.indiscernible_agree _ others) _ (hopening _)

end Session

end

end PocketShell
