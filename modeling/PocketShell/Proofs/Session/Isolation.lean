import PocketShell.Proofs.Session.Agreement
import PocketShell.Session.Sharing

/-!
# Sessions under different stems

No key belongs to two stems. So sessions that share a store do not touch one another if their stems
are different: to each party everything is as if the others were not there. A party that acts is
compared with itself: what it leaves agrees with the store before under all keys but its own. Main
statement: `Sharing.isolated`.
-/

namespace PocketShell

open ObedientStorage (Obeys)

/-- A key belongs to one stem only. -/
theorem StorageKeys.stem_eq_of_mem_all {stem stem' key : String} (h : key ∈ (ofStem stem).all)
    (h' : key ∈ (ofStem stem').all) : stem = stem' := by
  have hchars (rest rest' : String) (heq : stem ++ rest = stem' ++ rest') :
      rest.toList.reverse ++ stem.toList.reverse =
        rest'.toList.reverse ++ stem'.toList.reverse := by
    rw [← List.reverse_append, ← String.toList_append, heq, String.toList_append,
      List.reverse_append]
  simp only [all, ofStem, List.mem_cons, List.not_mem_nil, or_false] at h h'
  refine String.toList_inj.mp ?_
  -- Keys of different kinds end in different letters.
  rcases h with rfl | rfl | rfl <;> rcases h' with h' | h' | h' <;> simpa using hchars _ _ h'

namespace Sharing

variable {ι σ τ : Type}

/-- What a party sees of its session, if it has begun one. -/
def view? (sharing : Sharing ι σ) (party : ι) : Option Session.View :=
  (sharing.session? party).map Session.view

variable [Storage σ] [Storage τ] {settings : ι → Settings}

/-- The keys of a party. -/
abbrev keys (settings : ι → Settings) (party : ι) : StorageKeys :=
  .ofStem (settings party).stem

/-- All sessions have the keys of their parties. -/
def Keyed (settings : ι → Settings) (sharing : Sharing ι σ) : Prop :=
  ∀ party session, sharing.sessions party = some session → session.keys = keys settings party

variable [KeepingStorage σ] [ObedientStorage σ] [KeepingStorage τ] [ObedientStorage τ]

/-- A party has sessions that look the same, or none, on stores that agree under its keys. -/
structure Agree (settings : ι → Settings) (party : ι) (others : String → Option String)
    (first : Sharing ι σ) (second : Sharing ι τ) : Prop where
  stores : Storage.Agree (keys settings party).all others first.store second.store
  sessions : Option.Rel (fun session session' => session.Alike session' ∧
    session.keys = keys settings party) (first.sessions party) (second.sessions party)

variable {party : ι} {others : String → Option String} {first : Sharing ι σ} {second : Sharing ι τ}

/-- Where a party sees alike, it has sessions that agree, or none on either side. -/
theorem Agree.session? (h : first.Agree settings party others second) :
    Option.Rel (fun session session' => session.Agree (keys settings party) others session')
      (first.session? party) (second.session? party) := by
  have hsessions := h.sessions
  unfold Sharing.session?
  generalize first.sessions party = begun, second.sessions party = begun' at hsessions ⊢
  cases hsessions with
  | none => exact .none
  | some hsame =>
    obtain ⟨halike, hkeys⟩ := hsame
    exact .some ⟨⟨⟨halike.context.files, halike.context.login, halike.context.request,
      halike.context.keys⟩, hkeys, h.stores⟩, halike.hostname⟩

/-- Where a party sees alike, it sees the same. -/
theorem Agree.view?_eq (h : first.Agree settings party others second) :
    first.view? party = second.view? party := by
  have hsession := h.session?
  unfold view?
  generalize first.session? party = found, second.session? party = found' at hsession ⊢
  cases hsession with
  | none => rfl
  | some hsame => exact congrArg some hsame.alike.view_eq

variable [DecidableEq ι]

/-- Sessions that agree leave behind what a party sees alike. -/
theorem agree_leave {session : Session σ} {session' : Session τ}
    (h : session.Agree (keys settings party) others session') :
    (first.leave party session).Agree settings party others (second.leave party session') := by
  refine ⟨h.context.stores, ?_⟩
  simp only [leave, if_true]
  exact .some ⟨h.alike, h.context.keys_eq⟩

/-- A party that acts is answered the same where it sees the same, and sees the same after it. -/
theorem Agree.act (h : first.Agree settings party others second) (deed : Deed) :
    (first.act settings party deed).1 = (second.act settings party deed).1 ∧
      (first.act settings party deed).2.Agree settings party others
        (second.act settings party deed).2 := by
  cases deed with
  | start => exact ⟨rfl, agree_leave (Session.agree_start (settings party) h.stores)⟩
  | call call =>
    have hsession := h.session?
    unfold Sharing.act
    generalize first.session? party = found, second.session? party = found' at hsession ⊢
    cases hsession with
    | none => exact ⟨rfl, h⟩
    | some hsame =>
      obtain ⟨hreply, hafter⟩ := hsame.call call
      exact ⟨congrArg some hreply, agree_leave hafter⟩

/-! ## One party among others -/

omit [KeepingStorage σ] [ObedientStorage σ] in
/-- A deed of one party leaves the sessions of the others as they are. -/
theorem sessions_act_of_ne (sharing : Sharing ι σ) {party other : ι} (h : party ≠ other)
    (deed : Deed) :
    (sharing.act settings other deed).2.sessions party = sharing.sessions party := by
  cases deed with
  | start => exact if_neg h
  | call call =>
    simp only [act]
    cases sharing.session? other with
    | none => rfl
    | some session => exact if_neg h

omit [DecidableEq ι] in
/-- A party sees alike what is the same. -/
theorem Keyed.agree {sharing : Sharing ι σ} (h : sharing.Keyed settings)
    (hobeys : Obeys sharing.store) (party : ι) :
    sharing.Agree settings party (Storage.load sharing.store) sharing := by
  refine ⟨⟨hobeys, hobeys, fun _ _ => rfl, fun _ _ => rfl⟩, ?_⟩
  cases hsession : sharing.sessions party with
  | none => exact .none
  | some session => exact .some ⟨⟨⟨rfl, rfl, rfl, rfl⟩, rfl⟩, h party session hsession⟩

/-- A deed leaves every party with the keys of its own settings. -/
theorem Keyed.act {sharing : Sharing ι σ} (h : sharing.Keyed settings)
    (hobeys : Obeys sharing.store) (party : ι) (deed : Deed) :
    (sharing.act settings party deed).2.Keyed settings := by
  intro other session hsession
  by_cases hother : other = party
  · subst hother
    have hsessions := ((h.agree hobeys other).act deed).2.sessions
    rw [hsession] at hsessions
    cases hsessions with
    | some hsame => exact hsame.2
  · rw [sessions_act_of_ne sharing hother] at hsession
    exact h other session hsession

/-- A party sees the same among others and alone. -/
structure Isolated (settings : ι → Settings) (party : ι) (shared : Sharing ι σ)
    (alone : Sharing ι τ) : Prop where
  keyed : shared.Keyed settings
  agree : ∃ others, shared.Agree settings party others alone

variable {shared : Sharing ι σ} {alone : Sharing ι τ}

/-- A deed of the party itself comes to the same among others and alone. -/
theorem Isolated.act (h : shared.Isolated settings party alone) (deed : Deed) :
    (shared.act settings party deed).1 = (alone.act settings party deed).1 ∧
      (shared.act settings party deed).2.Isolated settings party
        (alone.act settings party deed).2 := by
  obtain ⟨others, hagree⟩ := h.agree
  obtain ⟨hreply, hafter⟩ := hagree.act deed
  exact ⟨hreply, h.keyed.act hagree.stores.obeys party deed, others, hafter⟩

/-- What another party does is not seen. -/
theorem Isolated.act_other (h : shared.Isolated settings party alone) {other : ι}
    (hother : party ≠ other) (hstem : (settings party).stem ≠ (settings other).stem)
    (deed : Deed) : (shared.act settings other deed).2.Isolated settings party alone := by
  obtain ⟨others, hagree⟩ := h.agree
  have hobeys := hagree.stores.obeys
  -- The other party compared with itself: `others` there are the texts before it acted.
  obtain ⟨-, hself⟩ := (h.keyed.agree hobeys other).act deed
  refine ⟨h.keyed.act hobeys other deed, _, ⟨hself.stores.obeys, hagree.stores.obeys',
    fun key hkey => ?_, fun _ _ => rfl⟩, ?_⟩
  · have hforeign : key ∉ (keys settings other).all := fun hmem =>
      hstem (StorageKeys.stem_eq_of_mem_all hkey hmem)
    rw [hself.stores.others key hforeign, hagree.stores.own key hkey]
  · rw [sessions_act_of_ne shared hother]
    exact hagree.sessions

/-- Among others a party sees what it sees alone with its own deeds; by induction on the deeds,
those of the others being no matter to it (`Isolated.act_other`). -/
theorem Isolated.run
    (hstems : ∀ party other, party ≠ other → (settings party).stem ≠ (settings other).stem)
    (h : shared.Isolated settings party alone) (deeds : List (ι × Deed)) :
    let own := deeds.filter (·.1 = party)
    (shared.replies settings deeds).filter (·.1 = party) = alone.replies settings own ∧
      (shared.after settings deeds).Isolated settings party (alone.after settings own) := by
  induction deeds generalizing shared alone with
  | nil => exact ⟨rfl, h⟩
  | cons deed deeds ih =>
    -- A deed of the party itself is done on both sides, one of another on the shared side only.
    obtain ⟨other, deed⟩ := deed
    by_cases hother : party = other
    · subst hother
      obtain ⟨hreply, hafter⟩ := h.act deed
      obtain ⟨hreplies, hlast⟩ := ih hafter
      simp only [List.filter_cons, decide_true, if_true, replies, after] at hreplies hlast ⊢
      exact ⟨by rw [hreply, hreplies], hlast⟩
    · obtain ⟨hreplies, hlast⟩ := ih (h.act_other hother (hstems _ _ hother) deed)
      have hskip : decide (other = party) = false := decide_eq_false (Ne.symm hother)
      simp only [List.filter_cons, hskip, replies, after] at hreplies hlast ⊢
      exact ⟨hreplies, hlast⟩

/-- **Sessions under different stems do not touch one another.** Whatever the parties that share a
store do and in whatever order, beginning sessions anew and resetting them included: a party is
answered what it would be answered alone, on any store that has the same texts under its keys; and
at any time it sees what it would see, and has the texts that it would have. -/
theorem isolated
    (hstems : ∀ party other, party ≠ other → (settings party).stem ≠ (settings other).stem)
    {store : σ} (hobeys : Obeys store) {store' : τ} (hobeys' : Obeys store') (party : ι)
    (htexts : ∀ key ∈ (keys settings party).all,
      Storage.load store key = Storage.load store' key)
    (deeds : List (ι × Deed)) :
    let own := deeds.filter (·.1 = party)
    let shared := (onStore store).after settings deeds
    let alone := (onStore store').after settings own
    ((onStore store).replies settings deeds).filter (·.1 = party) =
        (onStore store').replies settings own ∧
      shared.view? party = alone.view? party ∧
      ∀ key ∈ (keys settings party).all,
        Storage.load shared.store key = Storage.load alone.store key := by
  intro own shared alone
  have hbegin : (onStore store : Sharing ι σ).Isolated settings party (onStore store') :=
    ⟨fun _ _ h => (Option.some_ne_none _ h.symm).elim, Storage.load store,
      ⟨hobeys, hobeys', htexts, fun _ _ => rfl⟩, .none⟩
  obtain ⟨hreplies, hafter⟩ := hbegin.run hstems deeds
  obtain ⟨others, hagree⟩ := hafter.agree
  exact ⟨hreplies, hagree.view?_eq, hagree.stores.own⟩

/-- One stem begins with the other, and the other party forgets all that it has stored. -/
theorem isolated_of_reset :
    let settings (party : Bool) : Settings :=
      { Settings.forUser "user" with
        stem := if party then "x" else "x_filesystem", startInHome := false }
    let store : MemoryStore :=
      ⟨.ofList [("x_current_user", "\"guest\""), ("x_filesystem_current_user", "\"root\"")]⟩
    let store' : MemoryStore := ⟨.ofList [("x_current_user", "\"guest\"")]⟩
    let deeds : List (Bool × Deed) := [(true, .start), (false, .start),
      (true, .call (.execute ⟨0, 0⟩ "mkdir notes")), (false, .call (.saveFile "new" "text")),
      (true, .call (.execute ⟨0, 0⟩ "cd notes")), (false, .call (.execute ⟨0, 0⟩ "reset -f")),
      (true, .start), (false, .start), (true, .call (.execute ⟨0, 0⟩ "pwd"))]
    let own := deeds.filter (·.1 = true)
    let shared := (onStore store).after settings deeds
    let alone := (onStore store').after settings own
    ((onStore store).replies settings deeds).filter (·.1 = true) =
        (onStore store').replies settings own ∧
      shared.view? true = alone.view? true ∧
      ∀ key ∈ (keys settings true).all,
        Storage.load shared.store key = Storage.load alone.store key := by
  intro settings store store' deeds
  have hstems (party other : Bool) (h : party ≠ other) :
      (settings party).stem ≠ (settings other).stem := by
    revert party other
    decide
  have htexts : ∀ key ∈ (keys settings true).all,
      Storage.load store key = Storage.load store' key := by decide +kernel
  exact isolated hstems trivial trivial true htexts deeds

end Sharing

end PocketShell
