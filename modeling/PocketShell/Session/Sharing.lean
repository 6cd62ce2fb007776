import PocketShell.Session.Call

/-!
# Sessions on one store

Several parties may keep their sessions in one store, each with settings of its own. They act one
after another, in any order, and a session that acts finds the store as the one before has left it.
`Sharing.replies` are the answers that the parties get for what they do, and `Sharing.after` is what
they leave.
-/

namespace PocketShell

/-- A store, and the sessions that the parties have begun on it. -/
structure Sharing (ι σ : Type) where
  store : σ
  /-- The session of each party, as it was when it acted last. -/
  sessions : ι → Option (Session σ)

namespace Sharing

/-- Something that a party does. -/
inductive Deed where
  /-- Begin a session, in the place of the one before if there was one. -/
  | start
  | call (call : Session.Call)

variable {ι σ : Type}

/-- Nobody has begun a session. -/
def onStore (store : σ) : Sharing ι σ where
  store := store
  sessions _ := none

/-- The session of a party, on the store as it is now. -/
def session? (sharing : Sharing ι σ) (party : ι) : Option (Session σ) :=
  (sharing.sessions party).map fun session => { session with store := sharing.store }

variable [DecidableEq ι]

/-- A party is done with its session for now. -/
def leave (sharing : Sharing ι σ) (party : ι) (session : Session σ) : Sharing ι σ where
  store := session.store
  sessions other := if other = party then some session else sharing.sessions other

variable [Storage σ] (settings : ι → Settings)

/-- What a party is answered, if it asks its session for something, and what it leaves. -/
def act (sharing : Sharing ι σ) (party : ι) : Deed → Option Session.Reply × Sharing ι σ
  | .start => (none, sharing.leave party (.start (settings party) sharing.store))
  | .call call =>
    match sharing.session? party with
    | none => (none, sharing)
    | some session =>
      let called := session.call call
      (some called.1, sharing.leave party called.2)

/-- What the parties are answered for some deeds, one after another. -/
def replies (sharing : Sharing ι σ) : List (ι × Deed) → List (ι × Option Session.Reply)
  | [] => []
  | (party, deed) :: deeds =>
    let acted := sharing.act settings party deed
    (party, acted.1) :: acted.2.replies deeds

/-- What some deeds leave. -/
def after (sharing : Sharing ι σ) : List (ι × Deed) → Sharing ι σ
  | [] => sharing
  | (party, deed) :: deeds => (sharing.act settings party deed).2.after deeds

end Sharing

end PocketShell
