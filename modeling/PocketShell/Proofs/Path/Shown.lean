import PocketShell.Proofs.Path.Home
import PocketShell.Prompt

/-!
# Paths as they are shown

A path is shown with `~` for the home directory, and `~` is what a user types for it. Main
statement: `Path.leads_back_of_shown`, a normal path that is typed as it is shown leads back to
where it was read, whatever the home directory is; so the prompt tells any two directories apart.
-/

namespace PocketShell

namespace Path

variable {home path : String}

/-- A path is shown as it is, as `~`, or with `~` for what stands before one of its slashes. -/
theorem abbreviateHome_cases (home path : String) :
    abbreviateHome home path = path ∨ path = home ∧ abbreviateHome home path = "~" ∨
      ∃ rest, path = home ++ "/" ++ rest ∧ abbreviateHome home path = "~/" ++ rest := by
  unfold abbreviateHome
  split
  · exact .inl rfl
  · split
    · next hsame => exact .inr (.inl ⟨hsame, rfl⟩)
    · split
      · next below hbelow =>
        split
        · next hslash =>
          obtain ⟨rest, rfl⟩ := Text.beginsWith_iff_exists.mp hslash
          refine .inr (.inr ⟨rest, ?_, rfl⟩)
          rw [String.append_assoc]
          exact Text.dropOpening?_eq_some_iff.mp hbelow
        · exact .inl rfl
      · exact .inl rfl

/-- There is no `~` at the start of a normal path. -/
theorem IsNormal.expandHome_eq (h : IsNormal path) (home : String) :
    expandHome home path = path := by
  obtain ⟨rest, rfl⟩ := Text.beginsWith_iff_exists.mp h.beginsWith
  refine expandHome_eq_self (fun halone => ?_) fun hbefore => ?_
  · have hfirst := congrArg (·.toList.head?) halone
    simp at hfirst
  · rw [Text.beginsWith_iff] at hbefore
    simp at hbefore

/-- Prompts of a user on a host differ in the directory only. -/
theorem prompt_inj {user host other : String} :
    prompt user host path home = prompt user host other home ↔
      abbreviateHome home path = abbreviateHome home other := by
  simp [prompt]

/-- A normal path that is typed as it is shown leads to where it was read. -/
theorem resolve_expandHome_abbreviateHome (h : IsNormal path) (home base : String) :
    resolve base (expandHome home (abbreviateHome home path)) = path := by
  obtain hsame | ⟨hhome, hshown⟩ | ⟨rest, hpath, hshown⟩ := abbreviateHome_cases home path
  · rw [hsame, h.expandHome_eq, h.resolve_eq]
  · have hwhole : expandHome home "~" = home := if_pos rfl
    rw [hshown, hwhole, ← hhome, h.resolve_eq]
  · rw [hshown, resolve_expandHome_tilde, ← hpath, h.resolve_eq]

/-- **The path in the prompt leads back.** A normal path that is typed as it is shown leads to where
it was read, from every directory and with every home directory; so two directories are shown alike
in a prompt only if they are the same. -/
theorem leads_back_of_shown (h : IsNormal path) (home base : String) :
    resolve base (expandHome home (abbreviateHome home path)) = path ∧
      ∀ other, IsNormal other → ∀ user host,
        prompt user host path home = prompt user host other home → path = other := by
  refine ⟨resolve_expandHome_abbreviateHome h home base, fun other hother user host hprompt => ?_⟩
  calc
    path = resolve base (expandHome home (abbreviateHome home path)) :=
      (resolve_expandHome_abbreviateHome h home base).symm
    _ = resolve base (expandHome home (abbreviateHome home other)) := by
      rw [prompt_inj.mp hprompt]
    _ = other := resolve_expandHome_abbreviateHome hother home base

/-- Without a home directory all paths are shown after `~`. -/
theorem leads_back_of_shown_etc :
    IsNormal "/etc" ∧ abbreviateHome "" "/etc" = "~/etc" ∧
      resolve "/tmp" (expandHome "" "~/etc") = "/etc" := by
  have hetc : IsNormal "/etc" := by decide +kernel
  have hshown : abbreviateHome "" "/etc" = "~/etc" := by decide +kernel
  obtain ⟨hback, -⟩ := leads_back_of_shown hetc "" "/tmp"
  exact ⟨hetc, hshown, hshown ▸ hback⟩

end Path

end PocketShell
