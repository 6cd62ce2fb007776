import PocketShell.Proofs.Command.Indiscernible
import PocketShell.Proofs.Session.Sync

/-!
# What a store refuses makes no difference

A session reads its store when it begins, and not again; a save that is refused is reported and got
over. So two sessions that find the same texts are alike (`Session.Alike`) and stay alike, whatever
either store refuses: they differ in what is stored and in what is reported at most. Main statement:
`Session.course_eq_of_same_texts`.
-/

namespace PocketShell

namespace Context

variable {σ τ : Type}

/-- Two contexts that differ in the store and the notices at most. -/
structure Alike (first : Context σ) (second : Context τ) : Prop where
  files : second.files = first.files
  login : second.login = first.login
  request : second.request = first.request
  keys : second.keys = first.keys

/-- Neither the store nor the notices are read, and saving touches nothing else. -/
theorem indiscernible_alike [Storage σ] [Storage τ] :
    Indiscernible (fun (first : Context σ) (second : Context τ) => first.Alike second) where
  files h := h.files
  login h := by rw [h.login]; rfl
  keys h := h.keys
  withFiles h _ := ⟨rfl, h.login, h.request, h.keys⟩
  withLogin h login hhistory := by
    refine ⟨h.files, ?_, h.request, h.keys⟩
    rw [h.login, ← hhistory]
    rfl
  ask h _ := ⟨h.files, h.login, rfl, h.keys⟩
  report h _ := ⟨h.files, h.login, h.request, h.keys⟩
  save {first second} h key _ written := by
    obtain ⟨store, notices, hfirst⟩ := first.save_eq key written
    obtain ⟨store', notices', hsecond⟩ := second.save_eq key written
    rw [hfirst, hsecond]
    exact ⟨h.files, h.login, h.request, h.keys⟩

end Context

namespace Session

variable {σ τ : Type}

/-! ## What a host sees -/

/-- What a host sees of a session: all but what it stores and reports. -/
structure View where
  tree : Node
  /-- The user, the directory, the variables and the history. -/
  login : Login
  request : Option EditRequest
  prompt : String

/-- What a host sees of a session. -/
def view (session : Session σ) : View where
  tree := session.files.root
  login := session.login
  request := session.request
  prompt := session.prompt

/-- What some calls are answered, one after another, and what the host sees after each. -/
def course [Storage σ] (session : Session σ) : List Call → List (Reply × View)
  | [] => []
  | call :: calls =>
    let answered := session.call call
    (answered.1, answered.2.view) :: answered.2.course calls

/-! ## Sessions that are alike -/

/-- Two sessions that differ in the store and the notices at most. -/
structure Alike (first : Session σ) (second : Session τ) : Prop where
  context : first.toContext.Alike second.toContext
  hostname : second.hostname = first.hostname

/-- Sessions that are alike look the same to a host. -/
theorem Alike.view_eq {first : Session σ} {second : Session τ} (h : first.Alike second) :
    first.view = second.view := by
  rw [view, view, prompt, prompt, h.context.files, h.context.login, h.context.request, h.hostname]

variable [Storage σ] [Storage τ]

/-- No call changes the name of the host. -/
theorem hostname_call (session : Session σ) (call : Call) :
    (session.call call).2.hostname = session.hostname := by
  cases call with
  | execute now line =>
    rw [call_execute_snd, execute]
    split <;> rfl
  | saveFile path content =>
    rw [call_saveFile_snd]
    unfold saveFile
    extract_lets place tried
    split <;> rfl
  | complete input => rw [call_complete_snd]
  | takeRequest => rw [call_takeRequest_snd]; rfl

/-- Sessions that are alike answer a call alike and stay so, unless the call asks to forget what is
stored. -/
theorem Alike.call {first : Session σ} {second : Session τ} (h : first.Alike second) {call : Call}
    (hcall : call.Retains) :
    (first.call call).1 = (second.call call).1 ∧
      (first.call call).2.Alike (second.call call).2 := by
  have hR : Context.Indiscernible fun (first : Context σ) (second : Context τ) =>
    first.Alike second := Context.indiscernible_alike
  have hhostname : (second.call call).2.hostname = (first.call call).2.hostname := by
    rw [hostname_call, hostname_call, h.hostname]
  have hrecord (line : String) : (first.record line).Alike (second.record line) :=
    ⟨h.context.files, congrArg (·.record line) h.context.login, h.context.request, h.context.keys⟩
  have hhandOver : first.takeRequest.2.toContext.Alike second.takeRequest.2.toContext :=
    ⟨h.context.files, h.context.login, rfl, h.context.keys⟩
  obtain ⟨hreply, hafter⟩ := answersAlike_call hR h.context call hrecord
    (congrArg Login.history h.context.login) h.context.request hhandOver
    (by rintro now line rfl hreset; exact absurd hreset hcall)
  exact ⟨hreply, hafter, hhostname⟩

/-- Sessions that are alike take the same course through calls that do not ask to forget what is
stored. -/
theorem Alike.course_eq {first : Session σ} {second : Session τ} (h : first.Alike second)
    {calls : List Call} (hcalls : ∀ call ∈ calls, call.Retains) :
    first.course calls = second.course calls := by
  induction calls generalizing first second with
  | nil => rfl
  | cons call calls ih =>
    obtain ⟨hreply, hafter⟩ := h.call (hcalls call (.head _))
    rw [course, course, hreply, hafter.view_eq,
      ih hafter fun next hnext => hcalls next (.tail _ hnext)]

/-- Sessions that start on the same texts are alike, even if one of the stores then refuses to save.
-/
theorem alike_start (settings : Settings) {first : σ} {second : τ}
    (htexts : ∀ key, Storage.load first key = Storage.load second key) :
    (start settings first).Alike (start settings second) := by
  have hload : Restored.load (.ofStem settings.stem) first =
      Restored.load (.ofStem settings.stem) second := by simp only [Restored.load, htexts]
  have hopening (restored : Restored) :
      (opening settings restored first).Alike (opening settings restored second) :=
    ⟨rfl, rfl, rfl, rfl⟩
  have hR : Context.Indiscernible fun (first : Context σ) (second : Context τ) =>
    first.Alike second := Context.indiscernible_alike
  refine ⟨?_, rfl⟩
  rw [start, start, hload]
  exact related_saveUnrestored hR _ (hopening _)

/-- **What a store refuses makes no difference.** Two sessions with the same settings that begin on
stores with the same texts answer every sequence of calls alike, and show the host the same at the
beginning and after every call, whatever either store refuses and when, as long as no `reset` is
confirmed. -/
theorem course_eq_of_same_texts (settings : Settings) {first : σ} {second : τ}
    (htexts : ∀ key, Storage.load first key = Storage.load second key) {calls : List Call}
    (hcalls : ∀ call ∈ calls, call.Retains) :
    (start settings first).view = (start settings second).view ∧
      (start settings first).course calls = (start settings second).course calls := by
  have hstart := alike_start settings htexts
  exact ⟨hstart.view_eq, hstart.course_eq hcalls⟩

/-- A store that refuses every save, and one that refuses every other. -/
theorem course_eq_of_refusals :
    let settings := { Settings.forUser "user" with startInHome := false }
    let values : Values := .ofList [("ripline_current_path", "\"/etc\"")]
    let first : RefusingStore :=
      { values, refusals := { Refusals.none with save := fun _ _ => some .unavailable } }
    let everyOther (attempts : Nat) (key : String) : Option StorageError :=
      if attempts % 2 = 0 then some (.write key "quota") else none
    let second : RefusingStore :=
      { values, refusals := { Refusals.none with save := everyOther } }
    let calls := [Call.execute ⟨0, 0⟩ "mkdir notes", .execute ⟨0, 0⟩ "cd notes",
      .execute ⟨0, 0⟩ "su root > log", .saveFile "new" "text", .execute ⟨0, 0⟩ "vi new",
      .complete "cat n", .takeRequest]
    (start settings first).view = (start settings second).view ∧
      (start settings first).course calls = (start settings second).course calls := by
  intro settings values first everyOther second calls
  have htexts (key : String) : Storage.load first key = Storage.load second key := rfl
  have hcalls : ∀ call ∈ calls, call.Retains := by decide +kernel
  exact course_eq_of_same_texts settings htexts hcalls

end Session

end PocketShell
